/-
The lines of the calibration worker.

The worker answers a line with the rejection of the parser, or with the events of the engine.  A
line has at most 65536 bytes in either direction; the worker looks at the length of what it reads,
not of what it writes.

* `onLine` — the answer to a line;
* `Quotes` — the lines whose rejection quotes a key;
* `line_limit` — exactly the long keys break the limit;
* `long_key_answered` — a line of 65528 bytes is answered with one of 65607.
-/
import IsaacTeleop.CalibrationLimits
import IsaacTeleop.CalibrationSteps

open ByteText

namespace Calibration

open Json

variable {τ : Type}

/-! ### The worker -/

/-- What wakes the worker's loop. -/
inductive WorkerInput
  | line (text : ByteText)
  | tick
  | requestCancel

section Worker

variable [CppDouble τ] (env : Environment τ) (config : EngineConfig τ) (format : τ → ByteText)

/-- The handler of a line in `main`: the machine after it, and the lines that are sent. -/
def onLine (m : Machine τ) (line : ByteText) : Machine τ × List ByteText :=
  if m.engine.finished then (m, [])
  else
    match parseCommand line with
    | .error rejection => (m, [serializeEvent format (.rejected rejection)])
    | .ok command =>
      let m' := m.step env config (.handle command)
      (m', ((m'.trace.drop m.trace.length).filterMap Entry.event?).map (serializeEvent format))

def workerStep (m : Machine τ) : WorkerInput → Machine τ
  | .line text => (onLine env config format m text).1
  | .tick => m.step env config .tick
  | .requestCancel => m.step env config .requestCancel

/-- The machine after the worker has been woken so often. -/
def workerRun (inputs : List WorkerInput) : Machine τ :=
  inputs.foldl (workerStep env config format) Machine.init

end Worker

/-! ### Keys that are quoted -/

/-- The commands with the keys they may have. -/
def commandKeys : List (String × List String) :=
  [("start", ["v", "type", "attempt", "sides", "out_dir"]),
    ("confirm", ["v", "type", "attempt", "token"]), ("cancel", ["v", "type", "attempt"])]

/-- The rejection of a line quotes a key, with so many bytes around it: a key that comes twice, or
one that its command does not have. -/
inductive Quotes (line : ByteText) : ByteText → ℕ → Prop
  | duplicate {key : ByteText} (hline : line.length ≤ kMaxMessageBytes)
      (h : parseObject line = .error (lit "duplicate key \"" ++ key ++ lit "\"")) :
      Quotes line key 124
  | unknown {key : ByteText} {members : Members} {command : String} {allowed : List String}
      (hline : line.length ≤ kMaxMessageBytes) (h : parseObject line = .ok members)
      (hcommand : (command, allowed) ∈ commandKeys)
      (htype : stringField members "type" = some (lit command))
      (hversion : find members "v" = some (.integer 1))
      (hkey : unknownKey members allowed = some key) :
      Quotes line key (99 + (lit command).length)

/-! ### The errors of the reader -/

section Errors

variable {text : ByteText} {e : ByteText}

/-- The longest error of the reader that quotes nothing. -/
def ShortError (e : ByteText) : Prop := e.length ≤ 64

instance (e : ByteText) : Decidable (ShortError e) := inferInstanceAs (Decidable (_ ≤ _))

theorem readUnicodeEscape_error (h : readUnicodeEscape text = .error e) : ShortError e := by
  rw [readUnicodeEscape] at h
  split at h
  · cases h
    decide
  split at h
  · split at h
    · cases h
      decide
    · cases h
  split at h
  · cases h
    decide
  · cases h

theorem readEscape_error (h : readEscape text = .error e) : ShortError e := by
  rw [readEscape.eq_def] at h
  split at h
  · cases h
    decide
  · repeat' split at h
    all_goals first | exact readUnicodeEscape_error h | cases h
    decide

theorem readChars_error {turns : ℕ} (h : readChars turns text = .error e) : ShortError e := by
  induction turns generalizing text e with
  | zero =>
    cases h
    decide
  | succ turns ih =>
    cases text with
    | nil =>
      cases h
      decide
    | cons c rest =>
      rw [readChars] at h
      split at h
      · cases h
      split at h
      · cases h
        decide
      split at h
      · split at h
        · cases h
        · rename_i hrest
          cases h
          exact ih hrest
      split at h
      · split at h
        · cases h
        · rename_i hrest
          cases h
          exact ih hrest
      · rename_i hescape
        cases h
        exact readEscape_error hescape

theorem readString_error (h : readString text = .error e) : ShortError e := by
  rw [readString] at h
  split at h
  · cases h
    decide
  · exact readChars_error h

theorem readItems_error {turns : ℕ} (h : readItems turns text = .error e) : ShortError e := by
  induction turns generalizing text e with
  | zero =>
    cases h
    decide
  | succ turns ih =>
    rw [readItems] at h
    split at h
    · cases h
      decide
    split at h
    · cases h
    split at h
    · cases h
      decide
    split at h
    · cases h
    · rename_i hrest
      cases h
      exact ih hrest

theorem readValue_error (h : readValue text = .error e) : ShortError e := by
  cases text with
  | nil =>
    cases h
    decide
  | cons c rest =>
    rw [readValue] at h
    split at h
    · split at h
      · cases h
      · rename_i hstring
        cases h
        exact readString_error hstring
    split at h
    · rw [readStringArray] at h
      split at h
      · cases h
      split at h
      · cases h
      · rename_i hitems
        cases h
        exact readItems_error hitems
    split at h
    · unfold readInteger at h
      dsimp only at h
      split at h
      · cases h
        decide
      · cases h
    · cases h
      decide

theorem errorOr_short {default : String} (hdefault : ShortError (lit default))
    (h : ShortError e) : ShortError (errorOr default e) := by
  rw [errorOr]
  split
  · exact hdefault
  · exact h

/-- The error is short, or it quotes a key that comes twice. -/
def ErrorOk (e : ByteText) : Prop :=
  ShortError e ∨ ∃ key, e = lit "duplicate key \"" ++ key ++ lit "\""

theorem readMembers_error {turns : ℕ} {members : Members}
    (h : readMembers turns members text = .error e) : ErrorOk e := by
  induction turns generalizing members text with
  | zero =>
    cases h
    exact .inl (by decide)
  | succ turns ih =>
    rw [readMembers] at h
    split at h
    · rename_i hkey
      cases h
      exact .inl (errorOr_short (by decide) (readString_error hkey))
    split at h
    · cases h
      -- The one error that quotes its key.
      exact .inr ⟨_, rfl⟩
    split at h
    · cases h
      exact .inl (by decide)
    split at h
    · rename_i hvalue
      cases h
      exact .inl (errorOr_short (by decide) (readValue_error hvalue))
    split at h
    · cases h
    split at h
    · cases h
      exact .inl (by decide)
    · exact ih h

theorem parseObject_error (h : parseObject text = .error e) : ErrorOk e := by
  rw [parseObject] at h
  split at h
  · cases h
    exact .inl (by decide)
  dsimp only at h
  split at h
  · rename_i hread
    cases h
    split at hread
    · cases hread
    · exact readMembers_error hread
  split at h
  · cases h
  · cases h
    exact .inl (by decide)

end Errors

/-! ### Commands and rejections -/

section Parsing

variable {members : Members}

theorem parseAttempt_ok {command : String} {allowed : List String} {attempt : ByteText}
    (h : parseAttempt members command allowed = .ok attempt) : attempt.length ≤ 64 := by
  rw [parseAttempt] at h
  split at h
  · cases h
  split at h
  · cases h
  · rename_i hattempt
    cases h
    have hvalid := (Option.filter_eq_some_iff.mp hattempt).2
    rw [validAttempt, Bool.and_eq_true, Bool.and_eq_true] at hvalid
    exact of_decide_eq_true hvalid.1.2

theorem readSides_error {seenLeft seenRight : Bool} {names : List ByteText} {e : ByteText}
    (h : readSides seenLeft seenRight names = .error e) : ShortError e := by
  induction names generalizing seenLeft seenRight with
  | nil => cases h
  | cons name names ih =>
    rw [readSides] at h
    split at h
    · split at h
      · cases h
        decide
      · exact ih h
    split at h
    · split at h
      · cases h
        decide
      · exact ih h
    · cases h
      decide

theorem parseStart_sized {command : Command} (h : parseStart members = .ok command) :
    command.Sized := by
  rw [parseStart] at h
  split at h
  · cases h
  rename_i hattempt
  split at h
  · split at h
    · cases h
    split at h
    · cases h
    split at h
    · cases h
    · rename_i houtDir
      cases h
      have hvalid := (Option.filter_eq_some_iff.mp houtDir).2
      rw [validOutDir, Bool.and_eq_true, Bool.and_eq_true, Bool.and_eq_true] at hvalid
      exact ⟨parseAttempt_ok hattempt, of_decide_eq_true hvalid.1.1.2⟩
  · cases h

/-- **A parsed command has short texts.** -/
theorem parseCommand_sized {line : ByteText} {command : Command}
    (h : parseCommand line = .ok command) : command.Sized := by
  rw [parseCommand] at h
  split at h
  · cases h
  split at h
  · cases h
  split at h
  · cases h
  split at h
  · cases h
  split at h
  · exact parseStart_sized h
  split at h
  · rw [parseConfirm] at h
    split at h
    · cases h
    rename_i hattempt
    split at h
    · cases h
    · rename_i htoken
      cases h
      have hvalid := (Option.filter_eq_some_iff.mp htoken).2
      rw [validToken, Bool.and_eq_true, Bool.and_eq_true] at hvalid
      exact ⟨parseAttempt_ok hattempt, of_decide_eq_true hvalid.1.2⟩
  split at h
  · rw [parseCancel] at h
    split at h
    · cases h
    · rename_i hattempt
      cases h
      exact parseAttempt_ok hattempt
  · cases h

/-- A rejection that quotes nothing but the attempt. -/
theorem invalid_sized {command message : ByteText} {attempt : Option ByteText}
    (hcommand : command.length ≤ 16) (hmessage : message.length ≤ 128)
    (hattempt : ∀ a ∈ attempt, a.length ≤ 64) :
    (Event.rejected (invalid command message attempt) : Event τ).Sized :=
  ⟨hattempt, hcommand, hmessage, forall_mem_none⟩

/-- The rejection of a key that comes twice. -/
def duplicateRejection (key : ByteText) : RejectedEvent :=
  invalid (lit "unknown")
    (lit "malformed JSON: " ++ (lit "duplicate key \"" ++ key ++ lit "\"")) none

/-- The rejection of a key that the command does not have. -/
def unknownRejection (command : String) (key : ByteText) : RejectedEvent :=
  invalid (lit command) (lit "unknown key \"" ++ key ++ lit "\"") none

theorem parseAttempt_unknown {command : String} {allowed : List String} {key : ByteText}
    (h : unknownKey members allowed = some key) :
    parseAttempt members command allowed = .error (unknownRejection command key) := by
  rw [parseAttempt, h]
  rfl

/-- What a rejection of the keys or the attempt is. -/
theorem parseAttempt_error {command : String} {allowed : List String} {r : RejectedEvent}
    (hcommand : (lit command).length ≤ 16) (h : parseAttempt members command allowed = .error r) :
    (Event.rejected r : Event τ).Sized ∨
      ∃ key, unknownKey members allowed = some key ∧ r = unknownRejection command key := by
  rw [parseAttempt] at h
  split at h
  · rename_i key hkey
    cases h
    exact .inr ⟨key, hkey, rfl⟩
  split at h
  · cases h
    exact .inl (invalid_sized hcommand (by decide) forall_mem_none)
  · cases h

theorem some_attempt {command : String} {allowed : List String} {attempt : ByteText}
    (h : parseAttempt members command allowed = .ok attempt) :
    ∀ a ∈ some attempt, a.length ≤ 64 := by
  intro a ha
  rw [← Option.some_inj.mp ha]
  exact parseAttempt_ok h

/-- What a rejection of a command is, for each command. -/
theorem parseStart_error {r : RejectedEvent} (h : parseStart members = .error r) :
    (Event.rejected r : Event τ).Sized ∨ ∃ key,
      unknownKey members ["v", "type", "attempt", "sides", "out_dir"] = some key ∧
        r = unknownRejection "start" key := by
  rw [parseStart] at h
  split at h
  · rename_i hattempt
    cases h
    exact parseAttempt_error (by decide) hattempt
  rename_i hattempt
  -- Only the check of the keys quotes one.
  left
  split at h
  · split at h
    · cases h
      exact invalid_sized (by decide) (by decide) (some_attempt hattempt)
    split at h
    · rename_i hsides
      cases h
      exact invalid_sized (by decide) ((readSides_error hsides).trans (by decide))
        (some_attempt hattempt)
    split at h
    · cases h
      exact invalid_sized (by decide) (by decide) (some_attempt hattempt)
    · cases h
  · cases h
    exact invalid_sized (by decide) (by decide) (some_attempt hattempt)

theorem parseConfirm_error {r : RejectedEvent} (h : parseConfirm members = .error r) :
    (Event.rejected r : Event τ).Sized ∨ ∃ key,
      unknownKey members ["v", "type", "attempt", "token"] = some key ∧
        r = unknownRejection "confirm" key := by
  rw [parseConfirm] at h
  split at h
  · rename_i hattempt
    cases h
    exact parseAttempt_error (by decide) hattempt
  rename_i hattempt
  left
  split at h
  · cases h
    exact invalid_sized (by decide) (by decide) (some_attempt hattempt)
  · cases h

theorem parseCancel_error {r : RejectedEvent} (h : parseCancel members = .error r) :
    (Event.rejected r : Event τ).Sized ∨ ∃ key,
      unknownKey members ["v", "type", "attempt"] = some key ∧
        r = unknownRejection "cancel" key := by
  rw [parseCancel] at h
  split at h
  · rename_i hattempt
    cases h
    exact parseAttempt_error (by decide) hattempt
  · cases h

variable [CppDouble τ] (format : τ → ByteText)

/-- The length of a rejection. -/
theorem invalid_length (command message : ByteText) :
    (serializeEvent format (.rejected (invalid command message none))).length =
      81 + (appendString command).length + (appendString message).length := by
  have h₁ : (lit "\x7b\"v\":").length = 5 := rfl
  have h₂ : (decimal kProtocolVersion).length = 1 := rfl
  have h₃ : (appendString (lit "type")).length = 6 := rfl
  have h₄ : (appendString (lit "rejected")).length = 10 := rfl
  have h₅ : (appendString (lit "attempt")).length = 9 := rfl
  have h₆ : (lit "null").length = 4 := rfl
  have h₇ : (appendString (lit "command")).length = 9 := rfl
  have h₈ : (appendString (lit "reason")).length = 8 := rfl
  have h₉ : (appendString (lit "invalid")).length = 9 := rfl
  have h₁₀ : (appendString (lit "message")).length = 9 := rfl
  simp only [serializeEvent, invalid, reasonName, Option.map_none, Option.toList_none,
    List.append_nil, objectText, optionalString, string, raw, List.flatten_cons,
    List.flatten_nil, List.length_append, List.length_cons, List.length_nil, h₁, h₂, h₃, h₄, h₅,
    h₆, h₇, h₈, h₉, h₁₀]
  omega

theorem duplicateRejection_length (key : ByteText) :
    (serializeEvent format (.rejected (duplicateRejection key))).length =
      124 + (appendString key).length := by
  have hcommand : (appendString (lit "unknown")).length = 9 := rfl
  have hwords : ((lit "malformed JSON: " ++ lit "duplicate key \"").flatMap escapeByte).length =
      32 := rfl
  have hquoted := appendString_quoted
    (show ∀ c ∈ lit "malformed JSON: " ++ lit "duplicate key \"", c < 0x80 from
      List.all_iff_forall_prop.mp rfl) key
  rw [hwords, List.append_assoc, List.append_assoc, ← List.append_assoc (lit "duplicate key \"")]
    at hquoted
  rw [duplicateRejection, invalid_length, hcommand]
  show 81 + 9 + (appendString (lit "malformed JSON: " ++ (lit "duplicate key \"" ++ key ++
    [byte '"']))).length = 124 + (appendString key).length
  omega

theorem unknownRejection_length {command : String} {allowed : List String}
    (hcommand : (command, allowed) ∈ commandKeys) (key : ByteText) :
    (serializeEvent format (.rejected (unknownRejection command key))).length =
      99 + (lit command).length + (appendString key).length := by
  have hname : (appendString (lit command)).length = (lit command).length + 2 := by
    simp only [commandKeys, List.mem_cons, Prod.mk.injEq, List.not_mem_nil, or_false] at hcommand
    rcases hcommand with ⟨rfl, -⟩ | ⟨rfl, -⟩ | ⟨rfl, -⟩
    · rfl
    · rfl
    · rfl
  have hwords : ((lit "unknown key \"").flatMap escapeByte).length = 14 := rfl
  have hquoted := appendString_quoted
    (show ∀ c ∈ lit "unknown key \"", c < 0x80 from List.all_iff_forall_prop.mp rfl) key
  rw [hwords] at hquoted
  rw [unknownRejection, invalid_length, hname]
  show 81 + ((lit command).length + 2) + (appendString (lit "unknown key \"" ++ key ++
    [byte '"'])).length = 99 + (lit command).length + (appendString key).length
  omega

/-- **A quoted key is in the rejection.** -/
theorem Quotes.rejection {line key : ByteText} {n : ℕ} (h : Quotes line key n) :
    ∃ r, parseCommand line = .error r ∧
      (serializeEvent format (.rejected r)).length = n + (appendString key).length := by
  cases h with
  | duplicate hline h =>
    refine ⟨duplicateRejection key, ?_, duplicateRejection_length format key⟩
    rw [parseCommand, if_neg (by omega), h]
    rfl
  | @unknown members command allowed hline h hcommand htype hversion hkey =>
    refine ⟨unknownRejection command key, ?_, unknownRejection_length format hcommand key⟩
    rw [parseCommand, if_neg (by omega), h]
    dsimp only
    rw [htype]
    dsimp only
    rw [if_neg (not_not_intro hversion)]
    simp only [commandKeys, List.mem_cons, Prod.mk.injEq, List.not_mem_nil, or_false] at hcommand
    rcases hcommand with ⟨rfl, rfl⟩ | ⟨rfl, rfl⟩ | ⟨rfl, rfl⟩
    · rw [if_pos rfl, parseStart, parseAttempt_unknown hkey]
    · rw [if_neg (by decide), if_pos rfl, parseConfirm, parseAttempt_unknown hkey]
    · rw [if_neg (by decide), if_neg (by decide), if_pos rfl, parseCancel,
        parseAttempt_unknown hkey]

/-- **A rejection is short or quotes a key.** -/
theorem rejection_cases {line : ByteText} {r : RejectedEvent} (h : parseCommand line = .error r) :
    (Event.rejected r : Event τ).Sized ∨ ∃ key n, Quotes line key n ∧
      (serializeEvent format (.rejected r)).length = n + (appendString key).length := by
  rw [parseCommand] at h
  split at h
  · cases h
    exact .inl (invalid_sized (by decide) (by decide) forall_mem_none)
  rename_i hline
  split at h
  · -- no object: a key may come twice
    rename_i e herror
    cases h
    rcases parseObject_error herror with hshort | ⟨key, rfl⟩
    · refine .inl (invalid_sized (by decide) ?_ forall_mem_none)
      have hwords : (lit "malformed JSON: ").length = 16 := rfl
      have hlength : e.length ≤ 64 := hshort
      rw [List.length_append, hwords]
      omega
    · exact .inr ⟨key, _, .duplicate (by omega) herror, duplicateRejection_length format key⟩
  rename_i members hmembers
  split at h
  · cases h
    exact .inl (invalid_sized (by decide) (by decide) forall_mem_none)
  rename_i type htype
  split at h
  · cases h
    refine .inl (invalid_sized ?_ (by decide) forall_mem_none)
    split
    · rename_i hknown
      rcases hknown with rfl | rfl | rfl
      · decide
      · decide
      · decide
    · decide
  rename_i hversion
  -- a command of its kind, with a key it does not have
  have hquotes : ∀ {command : String} {allowed : List String},
      (command, allowed) ∈ commandKeys → type = lit command →
      ((Event.rejected r : Event τ).Sized ∨ ∃ key, unknownKey members allowed = some key ∧
        r = unknownRejection command key) →
      (Event.rejected r : Event τ).Sized ∨ ∃ key n, Quotes line key n ∧
        (serializeEvent format (.rejected r)).length = n + (appendString key).length := by
    rintro command allowed hcommand rfl (hsized | ⟨key, hkey, rfl⟩)
    · exact .inl hsized
    · exact .inr ⟨key, _, .unknown (by omega) hmembers hcommand htype (not_not.mp hversion) hkey,
        unknownRejection_length format hcommand key⟩
  split at h
  · rename_i hstart
    exact hquotes (by decide) hstart (parseStart_error h)
  split at h
  · rename_i hconfirm
    exact hquotes (by decide) hconfirm (parseConfirm_error h)
  split at h
  · rename_i hcancel
    exact hquotes (by decide) hcancel (parseCancel_error h)
  · cases h
    exact .inl (invalid_sized (by decide) (by decide) forall_mem_none)

end Parsing

/-! ### The limit -/

section Limit

variable [CppDouble τ] {env : Environment τ} {config : EngineConfig τ} (format : τ → ByteText)
  (henv : env.Sized) (hseconds : (signed (CppDouble.toInt config.discoveryTimeoutS)).length ≤ 20)

include henv hseconds

theorem workerRun_sized (inputs : List WorkerInput) :
    (workerRun env config format inputs).Sized := by
  rw [workerRun]
  induction inputs using List.reverseRecOn with
  | nil => exact .init
  | append_singleton inputs input ih =>
    rw [List.foldl_append, List.foldl_cons, List.foldl_nil]
    generalize inputs.foldl (workerStep env config format) Machine.init = m at ih ⊢
    cases input with
    | line text =>
      rw [workerStep, onLine]
      split
      · exact ih
      split
      · exact ih
      · -- A command that parses is sized, which is all that a step asks for.
        rename_i command hcommand
        show (m.step env config (.handle command)).Sized
        refine ih.step hseconds henv fun c hc => ?_
        rw [← Input.handle.inj hc]
        exact parseCommand_sized hcommand
    | tick =>
      show (m.step env config .tick).Sized
      exact ih.step hseconds henv nofun
    | requestCancel =>
      show (m.step env config .requestCancel).Sized
      exact ih.step hseconds henv nofun

/-- **The limit on lines.**  Whatever the worker was woken by before, every line it answers with is
within the limit exactly when the attempt is over or no quoted key is too long. -/
theorem line_limit (inputs : List WorkerInput) (line : ByteText) :
    (∀ out ∈ (onLine env config format (workerRun env config format inputs) line).2,
        out.length ≤ kMaxMessageBytes) ↔
      (workerRun env config format inputs).engine.finished = true ∨
        ∀ key n, Quotes line key n → n + (appendString key).length ≤ kMaxMessageBytes := by
  have hsized := workerRun_sized format henv hseconds inputs
  generalize workerRun env config format inputs = m at hsized ⊢
  rw [onLine]
  by_cases hfinished : m.engine.finished = true
  · rw [if_pos hfinished]
    exact iff_of_true (List.forall_mem_nil _) (.inl hfinished)
  rw [if_neg hfinished]
  cases hparse : parseCommand line with
  | error r =>
    constructor
    · intro hall
      refine .inr fun key n hquotes => ?_
      obtain ⟨r', hr', hlength⟩ := hquotes.rejection format
      obtain rfl := Except.error.inj (hr'.symm.trans hparse)
      rw [← hlength]
      exact hall _ (List.mem_singleton.mpr rfl)
    · rintro (hover | hkeys) out hout
      · exact absurd hover hfinished
      rw [List.mem_singleton.mp hout]
      rcases rejection_cases format hparse with hshort | ⟨key, n, hquotes, hlength⟩
      · exact serializeEvent_length_le format hshort
      · rw [hlength]
        exact hkeys key n hquotes
  | ok command =>
    -- the engine's own events
    have hstep : (m.step env config (.handle command)).Sized := by
      refine hsized.step hseconds henv fun c hc => ?_
      rw [← Input.handle.inj hc]
      exact parseCommand_sized hparse
    refine iff_of_true (fun out hout => ?_) (.inr fun key n hquotes => ?_)
    · obtain ⟨event, hevent, rfl⟩ := List.mem_map.mp hout
      obtain ⟨entry, hentry, heq⟩ := List.mem_filterMap.mp hevent
      refine serializeEvent_length_le format (hstep.events event ?_)
      cases entry with
      | event e =>
        rw [← Option.some_inj.mp heq]
        exact List.mem_of_mem_drop hentry
      | _ => cases heq
    · obtain ⟨r, hr, -⟩ := hquotes.rejection format
      rw [hparse] at hr
      cases hr

end Limit

/-! ### A long key -/

theorem chars_plain {body : ByteText} (h : ∀ c ∈ body, IsPlain c) : Chars body body := by
  induction body with
  | nil => exact .nil
  | cons c body ih =>
    exact .plain (h c (List.mem_cons_self ..)) (ih fun c' hc' => h c' (List.mem_cons_of_mem c hc'))

def longKey (n : ℕ) : ByteText := List.replicate n (byte 'a')

/-- A cancellation with a key of `n` bytes that it does not have. -/
def longKeyLine (n : ℕ) : ByteText :=
  lit "\x7b\"v\":1,\"type\":\"cancel\",\"" ++ (longKey n ++ lit "\":1\x7d")

def longKeyMembers (n : ℕ) : Members :=
  [(lit "v", .integer 1), (lit "type", .string (lit "cancel")), (longKey n, .integer 1)]

theorem plain_letter : IsPlain (byte 'a') := ⟨by decide, by decide, by decide⟩

theorem longKey_plain (n : ℕ) : ∀ c ∈ longKey n, IsPlain c := by
  intro c hc
  rw [List.eq_of_mem_replicate hc]
  exact plain_letter

theorem parseObject_longKey {n : ℕ} (hn : 0 < n) :
    parseObject (longKeyLine n) = .ok (longKeyMembers n) := by
  have hplain : ∀ s ∈ [lit "v", lit "type", lit "cancel"], ∀ c ∈ s, IsPlain c := by
    unfold IsPlain
    intro s hs
    simp only [List.mem_cons, List.not_mem_nil, or_false] at hs
    rcases hs with rfl | rfl | rfl
    · exact List.all_iff_forall_prop.mp rfl
    · exact List.all_iff_forall_prop.mp rfl
    · exact List.all_iff_forall_prop.mp rfl
  have hspace : Space [] := List.forall_mem_nil _
  -- The three members, each by the grammar.
  have hone : ValueText Chars (lit "1") (.integer 1) :=
    .integer ⟨lit "1", .inl ⟨rfl, rfl⟩, List.all_eq_true.mp rfl, by decide, by decide, by decide⟩
  have hversion : MemberText Chars ([] ++ lit "\"v\"" ++ [] ++ byte ':' :: ([] ++ lit "1" ++ []))
      (lit "v", .integer 1) :=
    .mk hspace ⟨lit "v", rfl, chars_plain (hplain _ (by decide))⟩ hspace hspace hone hspace
  have htype : MemberText Chars
      ([] ++ lit "\"type\"" ++ [] ++ byte ':' :: ([] ++ lit "\"cancel\"" ++ []))
      (lit "type", .string (lit "cancel")) :=
    .mk hspace ⟨lit "type", rfl, chars_plain (hplain _ (by decide))⟩ hspace hspace
      (.string ⟨lit "cancel", rfl, chars_plain (hplain _ (by decide))⟩) hspace
  have hkey : MemberText Chars
      ([] ++ (byte '"' :: (longKey n ++ [byte '"'])) ++ [] ++ byte ':' :: ([] ++ lit "1" ++ []))
      (longKey n, .integer 1) :=
    .mk hspace ⟨longKey n, rfl, chars_plain (longKey_plain n)⟩ hspace hspace hone hspace
  refine parseObject_iff.mpr ⟨[], _, [], ?_, hspace, hspace,
    .inr (.more hversion (.more htype (.last hkey))), ?_⟩
  · simp only [longKeyLine, List.nil_append, List.append_nil, List.append_assoc, List.cons_append]
    rfl
  · -- The keys differ: the long one begins with another character.
    obtain ⟨n, rfl⟩ : ∃ k, n = k + 1 := ⟨n - 1, by omega⟩
    have hfirst : ∀ s ∈ [lit "v", lit "type"], s ≠ longKey (n + 1) := by
      intro s hs heq
      have hhead : s.head? = some (byte 'a') := by
        rw [heq]
        rfl
      rcases List.mem_cons.mp hs with rfl | hs
      · exact absurd hhead (by decide)
      · rw [List.mem_singleton.mp hs] at hhead
        exact absurd hhead (by decide)
    show [lit "v", lit "type", longKey (n + 1)].Nodup
    refine List.nodup_cons.mpr ⟨?_, List.nodup_cons.mpr ⟨?_, List.nodup_singleton _⟩⟩
    · intro hmem
      rcases List.mem_cons.mp hmem with htype | hmem
      · exact absurd htype (by decide)
      · exact hfirst _ (by decide) (List.mem_singleton.mp hmem)
    · intro hmem
      exact hfirst _ (by decide) (List.mem_singleton.mp hmem)

theorem appendString_longKey (n : ℕ) : (appendString (longKey n)).length = n + 2 := by
  have hletter : escapeByte (byte 'a') = [byte 'a'] := rfl
  have hascii : ∀ c ∈ longKey n, c < 0x80 := by
    intro c hc
    rw [List.eq_of_mem_replicate hc]
    decide
  have hchars := appendChars_before hascii 0 []
  rw [Nat.add_zero, List.append_nil] at hchars
  have hlength : ((longKey n).flatMap escapeByte).length = n := by
    rw [longKey, List.length_flatMap, List.map_replicate, hletter, List.sum_replicate]
    exact Nat.mul_one n
  rw [appendString, hchars, List.length_cons, List.length_append, List.length_append, hlength]
  rfl

theorem quotes_longKey {n : ℕ} (hn : 7 < n) (hline : (longKeyLine n).length ≤ kMaxMessageBytes) :
    Quotes (longKeyLine n) (longKey n) 105 := by
  have hshort : ∀ s ∈ ["v", "type", "attempt"].map lit, s.length ≤ 7 := by decide
  have hnew : longKey n ∉ ["v", "type", "attempt"].map lit := by
    intro hmem
    have hlength := hshort _ hmem
    rw [longKey, List.length_replicate] at hlength
    omega
  have hkey : unknownKey (longKeyMembers n) ["v", "type", "attempt"] = some (longKey n) := by
    rw [unknownKey, longKeyMembers, List.find?_cons_of_neg (by decide),
      List.find?_cons_of_neg (by decide), List.find?_cons_of_pos]
    · rfl
    · exact decide_eq_true hnew
  exact .unknown hline (parseObject_longKey (by omega)) (by decide) rfl rfl hkey

/-- Three decimals of a whole number. -/
def threeDecimals (n : ℤ) : ByteText := signed n ++ lit ".000"

theorem obliging_exports : obliging.Exports := nofun

theorem obliging_sized : obliging.Sized where
  initializeSdk := fun _ => Nat.zero_le _
  connect := fun _ => Nat.zero_le _
  stepCount := fun _ _ => Nat.zero_le _
  stepData := fun _ _ _ => ⟨Nat.zero_le _, Nat.zero_le _, Nat.zero_le _⟩
  start := fun _ _ => Nat.zero_le _
  startStep := fun _ _ _ => Nat.zero_le _
  finish := fun _ _ => Nat.zero_le _
  stop := fun _ _ => Nat.zero_le _
  exportCalibration := fun _ _ => ⟨Nat.zero_le _, show 3 < 2 ^ 64 by decide⟩
  shutdown := fun _ => Nat.zero_le _
  write := obliging_exports.write_length

/-- An attempt begins. -/
def startLine : ByteText :=
  lit "\x7b\"v\":1,\"type\":\"start\",\"attempt\":\"a\"," ++
    lit "\"sides\":[\"left\"],\"out_dir\":\"/tmp\"\x7d"

/-- A line with a short key that a cancellation does not have, after the attempt has begun. -/
theorem short_key_answered :
    obliging.Sized ∧
      ((workerRun obliging ⟨.operator, 15, 1, 0⟩ threeDecimals
          [.line startLine, .tick]).engine.finished = true ∨
        ∀ key n, Quotes (longKeyLine 8) key n →
          n + (appendString key).length ≤ kMaxMessageBytes) := by
  refine ⟨obliging_sized, (line_limit threeDecimals obliging_sized (by decide) _ _).mp ?_⟩
  decide

/-- **A line of 65528 bytes is answered with one of 65607.** -/
theorem long_key_answered :
    (longKeyLine 65500).length = 65528 ∧
      ¬ ∀ out ∈ (onLine obliging ⟨.operator, 15, 1, 0⟩ threeDecimals Machine.init
        (longKeyLine 65500)).2, out.length ≤ kMaxMessageBytes := by
  have hlength : (longKeyLine 65500).length = 65528 := by
    have hbefore : (lit "\x7b\"v\":1,\"type\":\"cancel\",\"").length = 24 := rfl
    have hafter : (lit "\":1\x7d").length = 4 := rfl
    rw [longKeyLine, List.length_append, List.length_append, hbefore, hafter, longKey,
      List.length_replicate]
  refine ⟨hlength, fun hall => ?_⟩
  have hquotes := quotes_longKey (show 7 < 65500 by decide)
    (hlength.trans_le (by rw [kMaxMessageBytes]; omega))
  obtain ⟨r, hr, hanswer⟩ := hquotes.rejection threeDecimals
  have hout := hall (serializeEvent threeDecimals (.rejected r)) ?_
  · rw [hanswer, appendString_longKey, kMaxMessageBytes] at hout
    omega
  · rw [onLine, hr]
    exact List.mem_singleton.mpr rfl

end Calibration
