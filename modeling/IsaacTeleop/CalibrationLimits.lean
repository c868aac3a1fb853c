/-
The lengths of the texts that the calibration engine holds.

The SDK, the export writer and the commands bring short texts only, and the engine adds a few
words to them, so that every event it sends has short texts too.

* `Environment.Sized`, `Command.Sized` — what comes in;
* `Machine.Sized` — what the engine holds and has sent;
* `Machine.Sized.step` — one call keeps it.
-/
import IsaacTeleop.CalibrationCalls
import IsaacTeleop.EventSizes
import IsaacTeleop.ExportWriter

open ByteText

namespace Calibration

variable {τ : Type}

/-! ### What comes in -/

/-- The texts of the SDK adapter and of the export writer.  A status has the name of an operation
and a number, a step has the fixed arrays of the SDK, and an export error has the path and the
text of `errno` (`Environment.Exports.write_length`). -/
structure Environment.Sized (env : Environment τ) : Prop where
  initializeSdk : ∀ t, (env.initializeSdk t).message.length ≤ 256
  connect : ∀ t, (env.connect t).message.length ≤ 256
  stepCount : ∀ t glove, (env.stepCount t glove).1.message.length ≤ 256
  stepData : ∀ t glove index, (env.stepData t glove index).1.message.length ≤ 256 ∧
    (env.stepData t glove index).2.title.length ≤ 4096 ∧
    (env.stepData t glove index).2.instruction.length ≤ 4096
  start : ∀ t glove, (env.start t glove).message.length ≤ 256
  startStep : ∀ t glove index, (env.startStep t glove index).message.length ≤ 256
  finish : ∀ t glove, (env.finish t glove).message.length ≤ 256
  stop : ∀ t glove, (env.stop t glove).message.length ≤ 256
  exportCalibration : ∀ t glove, (env.exportCalibration t glove).1.message.length ≤ 256 ∧
    (env.exportCalibration t glove).2.length < 2 ^ 64
  shutdown : ∀ t, (env.shutdown t).message.length ≤ 256
  write : ∀ t dir basename bytes, ∀ error ∈ env.write t dir basename bytes,
    error.length ≤ dir.length + basename.length + 256

/-- What the environment reports of a write is what the export writer reports, on some file system
and with short texts of `errno`. -/
def Environment.Exports (env : Environment τ) : Prop :=
  ∀ t dir basename bytes, ∀ error ∈ env.write t dir basename bytes,
    ∃ (calls : ExportWriter.Calls) (fuel : ℕ) (fs fs' : ExportWriter.Fs)
      (path name : ExportWriter.CString), calls.Short ∧ path.bytes = dir ∧ name.bytes = basename ∧
      ExportWriter.write calls fuel fs path name bytes = some (some error, fs')

/-- **The export writer's errors are short**, as the engine needs them. -/
theorem Environment.Exports.write_length {env : Environment τ} (h : env.Exports) :
    ∀ t dir basename bytes, ∀ error ∈ env.write t dir basename bytes,
      error.length ≤ dir.length + basename.length + 256 := by
  intro t dir basename bytes error herror
  obtain ⟨calls, fuel, fs, fs', path, name, hshort, rfl, rfl, hwrite⟩ :=
    h t dir basename bytes error herror
  exact ExportWriter.write_error_length hshort hwrite

/-- The texts of a command that was parsed. -/
def Command.Sized : Command → Prop
  | .start c => c.attempt.length ≤ 64 ∧ c.outDir.length ≤ 4096
  | .confirm c => c.attempt.length ≤ 64 ∧ c.token.length ≤ 128
  | .cancel c => c.attempt.length ≤ 64

theorem StartCommand.sides_length (c : StartCommand) : c.sides.length ≤ 2 := by
  have hordered := c.sides_ordered
  match hsides : c.sides with
  | [] => exact Nat.zero_le _
  | [_] => exact Nat.le_succ _
  | [_, _] => exact le_rfl
  | a :: b :: d :: rest =>
    rw [hsides] at hordered
    obtain ⟨hfirst, hrest⟩ := List.pairwise_cons.mp hordered
    -- the second side is on the right of the first, and on the left of the third
    have hright := (hfirst b (List.mem_cons_self ..)).2
    have hleft := ((List.pairwise_cons.mp hrest).1 d (List.mem_cons_self ..)).1
    rw [hright] at hleft
    cases hleft

theorem forall_mem_none {α : Type} {P : α → Prop} : ∀ a ∈ (none : Option α), P a :=
  fun a h => absurd h (Option.not_mem_none a)

/-! ### What the engine holds -/

/-- The glove at hand is one of the pinned ones, and those before it are the ones exported. -/
def Engine.Working (e : Engine τ) : Prop :=
  e.gloveIndex < e.pinned.length ∧ e.exported.length ≤ e.gloveIndex

structure Engine.Sized (e : Engine τ) : Prop where
  attempt : e.attempt.length ≤ 64
  outDir : e.outDir.length ≤ 4096
  sides : e.sides.length ≤ 2
  pinned : e.pinned.length ≤ 2
  reported : e.lastReportedGloves.length ≤ 2
  token : e.currentToken.length ≤ 128
  stepIndex : e.stepIndex < 2 ^ 32
  stepCount : e.stepCount < 2 ^ 32
  exported : e.exported.length ≤ 2
  files : ∀ f ∈ e.exported, f.Sized
  working : e.state = .awaitingStep ∨ e.state = .capturingStep → e.Working
  fresh : e.state = .idle ∨ e.state = .discovering → e.gloveIndex = 0 ∧ e.exported = []
  asked : e.state = .discovering → e.sides ≠ []

def Entry.event? : Entry τ → Option (Event τ)
  | .event e => some e
  | _ => none

structure Machine.Sized (m : Machine τ) : Prop where
  engine : m.engine.Sized
  events : ∀ event, Entry.event event ∈ m.trace → event.Sized

theorem Engine.Sized.init [CppDouble τ] : (Engine.init : Engine τ).Sized where
  attempt := Nat.zero_le _
  outDir := Nat.zero_le _
  sides := Nat.zero_le _
  pinned := Nat.zero_le _
  reported := Nat.zero_le _
  token := Nat.zero_le _
  stepIndex := show 0 < 2 ^ 32 by decide
  stepCount := show 0 < 2 ^ 32 by decide
  exported := Nat.zero_le _
  files := List.forall_mem_nil _
  working := by rintro (h | h) <;> cases h
  fresh := fun _ => ⟨rfl, rfl⟩
  asked := fun h => by cases h

theorem Machine.Sized.init [CppDouble τ] : (Machine.init : Machine τ).Sized :=
  ⟨.init, fun _ hmem => absurd hmem List.not_mem_nil⟩

namespace Machine.Sized

variable {env : Environment τ} {m : Machine τ}

theorem requestCancel (h : m.Sized) : m.requestCancel.Sized := by
  refine ⟨h.engine, fun event hmem => ?_⟩
  rcases List.mem_append.mp hmem with hmem | hmem
  · exact h.events event hmem
  · cases List.mem_singleton.mp hmem

theorem record (h : m.Sized) {entry : Entry τ}
    (hentry : ∀ event, entry = .event event → event.Sized) : (m.record env entry).Sized := by
  have hadded : ({ m with trace := m.trace ++ [entry] } : Machine τ).Sized := by
    refine ⟨h.engine, fun event hmem => ?_⟩
    rcases List.mem_append.mp hmem with hmem | hmem
    · exact h.events event hmem
    · exact hentry event (List.mem_singleton.mp hmem).symm
  rw [Machine.record]
  dsimp only
  split
  · exact hadded.requestCancel
  · exact hadded

/-- An entry that is no event. -/
theorem recordCall (h : m.Sized) {entry : Entry τ} (hentry : entry.event? = none) :
    (m.record env entry).Sized := by
  refine h.record fun event heq => ?_
  rw [heq] at hentry
  cases hentry

theorem emit (h : m.Sized) {event : Event τ} (hevent : event.Sized) : (m.emit env event).Sized :=
  h.record fun _ heq => Entry.event.inj heq ▸ hevent

theorem update (h : m.Sized) {f : Engine τ → Engine τ} (hf : (f m.engine).Sized) :
    (m.update f).Sized :=
  ⟨hf, h.events⟩

theorem emitStatus (h : m.Sized) (phase : Phase) : (m.emitStatus env phase).Sized := by
  refine h.emit ⟨h.engine.attempt, ?_⟩
  show (if m.engine.pinned = [] then m.engine.lastReportedGloves else m.engine.pinned).length ≤ 2
  split
  · exact h.engine.reported
  · exact h.engine.pinned

/-! ### Terminating -/

/-- What `terminate` carries from one release to the next. -/
def teardown (t : Machine.Teardown τ) : Prop := t.machine.Sized ∧ ∀ error ∈ t.error, error.Sized

theorem release {t : Machine.Teardown τ} (ht : teardown t) (h : m.Sized) (status : SdkStatus)
    (promised : Bool) {error : ErrorInfo} (herror : error.Sized) :
    teardown (t.release m status promised error) := by
  rw [Machine.Teardown.release]
  split
  · refine ⟨h, fun e he => ?_⟩
    rw [← Option.some_inj.mp he]
    exact herror
  · exact ⟨h, ht.2⟩

/-- A few words in front of a message. -/
theorem errorInfo {message : ByteText} {side : Option Side} {step : Option ℕ} (words : String)
    (code : ErrorCode) (hwords : (lit words).length ≤ 64) (hmessage : message.length ≤ 5000)
    (hstep : ∀ n ∈ step, n < 2 ^ 32) :
    ErrorInfo.Sized
      { code := code, message := lit words ++ message, side := side, step := step } := by
  refine ⟨?_, hstep⟩
  show (lit words ++ message).length ≤ 6000
  rw [List.length_append]
  omega

theorem stopCalibrating (henv : env.Sized) {t : Machine.Teardown τ} (ht : teardown t) :
    teardown (Machine.stopCalibrating env t) := by
  rw [Machine.stopCalibrating]
  dsimp only
  split
  · have hrecorded : (t.machine.record env (.stop t.machine.engine.glove
        (env.stop t.machine.trace t.machine.engine.glove.gloveId))).Sized := ht.1.recordCall rfl
    refine release ht (hrecorded.update { hrecorded.engine with }) _ _ ?_
    refine errorInfo _ _ (by decide) ((henv.stop _ _).trans (by decide)) fun n hn => ?_
    rw [← Option.some_inj.mp hn]
    exact hrecorded.engine.stepIndex
  · exact ht

theorem shutDown (henv : env.Sized) {t : Machine.Teardown τ} (ht : teardown t) :
    teardown (Machine.shutDown env t) := by
  rw [Machine.shutDown]
  dsimp only
  split
  · have hrecorded : (t.machine.record env (.shutdown (env.shutdown t.machine.trace))).Sized :=
      ht.1.recordCall rfl
    refine release ht (hrecorded.update { hrecorded.engine with }) _ _ ?_
    exact errorInfo _ _ (by decide) ((henv.shutdown _).trans (by decide)) forall_mem_none
  · exact ht

theorem terminate (henv : env.Sized) (h : m.Sized) (outcome : Outcome) {error : Option ErrorInfo}
    (herror : ∀ e ∈ error, e.Sized) : (m.terminate env outcome error).Sized := by
  rw [Machine.terminate]
  dsimp only
  split
  · exact h
  have hstatus : (if m.engine.attempt = [] then m else m.emitStatus env .stopping).Sized := by
    split
    · exact h
    · exact h.emitStatus _
  generalize (if m.engine.attempt = [] then m else m.emitStatus env .stopping) = m₁ at hstatus
  -- Each stage of the teardown keeps the sizes, and its error within bounds.
  obtain ⟨hdown, herror'⟩ := shutDown henv (stopCalibrating henv
    (show teardown ⟨m₁, true, outcome, error⟩ from ⟨hstatus, herror⟩))
  generalize Machine.shutDown env (Machine.stopCalibrating env ⟨m₁, true, outcome, error⟩) = t
    at hdown herror'
  -- A finished engine owes nothing that depends on its state.
  have hfinished : (t.machine.update fun e =>
      { e with state := .finished, finished := true, outcome := t.outcome }).Sized :=
    hdown.update { hdown.engine with
      working := by rintro (h | h) <;> cases h
      fresh := by rintro (h | h) <;> cases h
      asked := fun h => by cases h }
  refine hfinished.emit ⟨?_, ?_, ?_, herror'⟩
  · intro attempt hattempt
    dsimp only at hattempt
    split at hattempt
    · cases hattempt
    · rw [← Option.some_inj.mp hattempt]
      exact hdown.engine.attempt
  · dsimp only
    split
    · exact hdown.engine.exported
    · exact Nat.zero_le _
  · intro f hf
    dsimp only at hf
    split at hf
    · exact hdown.engine.files f hf
    · cases hf

theorem fail (henv : env.Sized) (h : m.Sized) {code : ErrorCode} {message : ByteText}
    {side : Option Side} {step : Option ℕ} (hmessage : message.length ≤ 6000)
    (hstep : ∀ n ∈ step, n < 2 ^ 32) : (m.fail env code message side step).Sized := by
  refine h.terminate henv _ fun e he => ?_
  rw [← Option.some_inj.mp he]
  exact ⟨hmessage, hstep⟩

/-- A call that has failed, with its message after a few words. -/
theorem failed (henv : env.Sized) (h : m.Sized) {code : ErrorCode} {words : String}
    {message : ByteText} {side : Option Side} {step : Option ℕ}
    (hwords : (lit words).length ≤ 64) (hmessage : message.length ≤ 5000)
    (hstep : ∀ n ∈ step, n < 2 ^ 32) :
    (m.fail env code (lit words ++ message) side step).Sized := by
  refine h.fail henv ?_ hstep
  rw [List.length_append]
  omega

theorem terminateIfCancelled (henv : env.Sized) (h : m.Sized) :
    (m.terminateIfCancelled env).2.Sized := by
  rw [Machine.terminateIfCancelled]
  split
  · exact h
  · exact h.terminate henv _ forall_mem_none

/-! ### Gloves -/

theorem gloveProblem_length {landscape : List SdkGlove} {pinned : GloveRef} {code : ErrorCode}
    {message : ByteText} (h : Machine.gloveProblem landscape pinned = some (code, message)) :
    message.length ≤ 6000 := by
  have hside := sideName_length_le pinned.side
  have hid := decimal_length_le_ten pinned.gloveId.toNat_lt
  rw [Machine.gloveProblem] at h
  split at h
  · obtain ⟨-, rfl⟩ := Prod.mk.inj (Option.some_inj.mp h)
    have h₁ : (lit " glove (id ").length = 11 := rfl
    have h₂ : (lit ")").length = 1 := rfl
    have h₃ : (lit " is no longer connected").length = 23 := rfl
    simp only [Machine.gloveText, List.length_append, h₁, h₂, h₃]
    omega
  · rename_i sameSide hfound
    have hother := decimal_length_le_ten sameSide.id.toNat_lt
    split at h
    · obtain ⟨-, rfl⟩ := Prod.mk.inj (Option.some_inj.mp h)
      have h₁ : (lit " glove changed from id ").length = 23 := rfl
      have h₂ : (lit " to id ").length = 7 := rfl
      simp only [List.length_append, h₁, h₂]
      omega
    · cases h

theorem checkGloves (henv : env.Sized) (h : m.Sized) : (m.checkGloves env).2.Sized := by
  have hrecorded : (m.record env (.gloves (env.gloves m.trace))).Sized := h.recordCall rfl
  rw [Machine.checkGloves]
  split
  · rename_i pinned code message hfound
    obtain ⟨glove, -, hproblem⟩ := List.exists_of_findSome?_eq_some hfound
    obtain ⟨problem, hproblem, heq⟩ := Option.map_eq_some_iff.mp hproblem
    obtain ⟨rfl, rfl⟩ := Prod.mk.inj heq
    refine hrecorded.fail henv (gloveProblem_length hproblem) fun n hn => ?_
    split at hn
    · rw [← Option.some_inj.mp hn]
      exact hrecorded.engine.stepIndex
    · cases hn
  · exact hrecorded

/-- With its gloves there, the engine is as it was. -/
theorem checkGloves_engine {m' : Machine τ} (hcheck : m.checkGloves env = (true, m')) :
    m'.engine = m.engine := by
  rw [Machine.checkGloves] at hcheck
  split at hcheck
  · cases hcheck
  · obtain ⟨-, rfl⟩ := Prod.mk.inj hcheck
    exact Machine.record_engine env m _

section Methods

variable [CppDouble τ] {config : EngineConfig τ}

/-- The text of a token. -/
theorem token_length {attempt : ByteText} (h : attempt.length ≤ 64) (n : ℕ) :
    (attempt ++ lit "-" ++ decimal (n % 2 ^ 64)).length ≤ 128 := by
  have hdecimal := decimal_length_le_twenty (Nat.mod_lt n (show 2 ^ 64 > 0 by decide))
  have hdash : (lit "-").length = 1 := rfl
  simp only [List.length_append, hdash]
  omega

theorem unusableStepTime_length (timeS : τ) : (Machine.unusableStepTime timeS).length ≤ 6000 := by
  rw [Machine.unusableStepTime]
  split
  · exact Nat.zero_le _
  · decide

theorem offerPrompt (henv : env.Sized) (h : m.Sized) (hworking : m.engine.Working) :
    (m.offerPrompt env config).Sized := by
  have hreply := henv.stepData m.trace m.engine.glove.gloveId m.engine.stepIndex
  rcases heq : env.stepData m.trace m.engine.glove.gloveId m.engine.stepIndex with ⟨read, step⟩
  rw [heq] at hreply
  obtain ⟨hmessage, htitle, hinstruction⟩ := hreply
  simp only [Machine.offerPrompt, heq]
  have hstep : ∀ n ∈ some m.engine.stepIndex, n < 2 ^ 32 := by
    intro n hn
    rw [← Option.some_inj.mp hn]
    exact h.engine.stepIndex
  have hrecorded : (m.record env (.stepData m.engine.glove m.engine.stepIndex read step)).Sized :=
    h.recordCall rfl
  have hengine := Machine.record_engine env m
    (.stepData m.engine.glove m.engine.stepIndex read step)
  generalize m.record env (.stepData m.engine.glove m.engine.stepIndex read step) = m₁
    at hrecorded hengine ⊢
  rw [← hengine] at hworking
  split
  · exact hrecorded.failed henv (by decide) (hmessage.trans (by decide)) hstep
  split
  · exact hrecorded.fail henv (unusableStepTime_length _) hstep
  · -- the prompt is offered
    refine emit (emitStatus (hrecorded.update ?_) _) ?_
    · exact { hrecorded.engine with
        token := token_length hrecorded.engine.attempt _
        working := fun _ => hworking
        fresh := by rintro (h | h) <;> cases h
        asked := fun h => by cases h }
    · simp only [Machine.emitStatus_engine, Machine.update_engine]
      exact ⟨hrecorded.engine.attempt, token_length hrecorded.engine.attempt _,
        hrecorded.engine.stepIndex, hrecorded.engine.stepCount, htitle, hinstruction⟩

theorem checkSteps (henv : env.Sized) {glove : GloveRef} {remaining index : ℕ}
    (hindex : index + remaining ≤ 2 ^ 32) (h : m.Sized) :
    (Machine.checkSteps env glove remaining index m).2.Sized := by
  induction remaining generalizing index m with
  | zero => exact h
  | succ remaining ih =>
    have hmessage := (henv.stepData m.trace glove.gloveId index).1
    rcases heq : env.stepData m.trace glove.gloveId index with ⟨read, step⟩
    rw [heq] at hmessage
    simp only [Machine.checkSteps, heq]
    have hrecorded : (m.record env (.stepData glove index read step)).Sized :=
      h.recordCall rfl
    have hstep : ∀ n ∈ some index, n < 2 ^ 32 := by
      intro n hn
      rw [← Option.some_inj.mp hn]
      omega
    split
    · exact hrecorded.failed henv (by decide) (hmessage.trans (by decide)) hstep
    split
    · exact hrecorded.fail henv (unusableStepTime_length _) hstep
    · exact ih (by omega) hrecorded

/-- With its steps checked, the engine is as it was. -/
theorem checkSteps_engine {glove : GloveRef} {remaining index : ℕ} {m' : Machine τ}
    (hcheck : Machine.checkSteps env glove remaining index m = (true, m')) :
    m'.engine = m.engine := by
  induction remaining generalizing index m with
  | zero =>
    obtain ⟨-, rfl⟩ := Prod.mk.inj hcheck
    rfl
  | succ remaining ih =>
    rw [Machine.checkSteps] at hcheck
    dsimp only at hcheck
    split at hcheck
    · cases hcheck
    split at hcheck
    · cases hcheck
    · rw [ih hcheck, Machine.record_engine]

theorem startGlove (henv : env.Sized) (h : m.Sized) (hworking : m.engine.Working)
    (glove : GloveRef) (count : UInt32) : (m.startGlove env config glove count).Sized := by
  rw [Machine.startGlove]
  dsimp only
  have hmessage := henv.start m.trace glove.gloveId
  generalize env.start m.trace glove.gloveId = started at hmessage ⊢
  have hrecorded : (m.record env (.start glove started)).Sized := h.recordCall rfl
  have hengine := Machine.record_engine env m (.start glove started)
  generalize m.record env _ = m₁ at hrecorded hengine ⊢
  rw [← hengine] at hworking
  split
  · exact hrecorded.failed henv (by decide) (hmessage.trans (by decide)) forall_mem_none
  have hupdated : (m₁.update fun e =>
      { e with calibrating := true, stepCount := count.toNat, stepIndex := 0 }).Sized :=
    hrecorded.update { hrecorded.engine with
      stepIndex := show 0 < 2 ^ 32 by decide
      stepCount := count.toNat_lt }
  -- The count comes from a 32-bit word, so no index of a step overflows.
  have hcount : 0 + count.toNat ≤ 2 ^ 32 := by
    have hlt := count.toNat_lt
    omega
  have hsteps : (Machine.checkSteps env glove count.toNat 0 _).2.Sized :=
    checkSteps henv hcount hupdated
  split
  · rename_i hcheck
    exact of_pair hsteps hcheck
  · rename_i m₂ hcheck
    refine offerPrompt henv (of_pair hsteps hcheck) ?_
    rw [checkSteps_engine hcheck]
    exact hworking

theorem beginGlove (henv : env.Sized) (h : m.Sized) (hworking : m.engine.Working) :
    (m.beginGlove env config).Sized := by
  have hmessage := henv.stepCount m.trace m.engine.glove.gloveId
  rcases heq : env.stepCount m.trace m.engine.glove.gloveId with ⟨counted, count⟩
  rw [heq] at hmessage
  simp only [Machine.beginGlove, heq]
  have hrecorded : (m.record env (.stepCount m.engine.glove counted count)).Sized :=
    h.recordCall rfl
  split
  · exact hrecorded.failed henv (by decide) (hmessage.trans (by decide)) forall_mem_none
  split
  · exact hrecorded.fail henv (by decide) forall_mem_none
  · refine hrecorded.startGlove henv ?_ _ _
    rwa [Machine.record_engine]

/-- **On to the next glove**, with the one at hand exported. -/
theorem nextGlove (henv : env.Sized) (h : m.Sized) (hstate : m.engine.state = .saving)
    (hexported : m.engine.exported.length ≤ m.engine.gloveIndex + 1) :
    (m.nextGlove env config).Sized := by
  have hupdated : (m.update fun e => { e with gloveIndex := e.gloveIndex + 1 }).Sized :=
    h.update { h.engine with
      working := by rintro (h | h) <;> cases hstate.symm.trans h
      fresh := by rintro (h | h) <;> cases hstate.symm.trans h }
  rw [Machine.nextGlove]
  split
  · rename_i hmore
    split
    · rename_i hcancel
      exact of_pair (hupdated.terminateIfCancelled henv) hcancel
    · rename_i hcancel
      obtain ⟨rfl, -⟩ := terminateIfCancelled_false hcancel
      exact hupdated.beginGlove henv ⟨hmore, hexported⟩
  · exact hupdated.terminate henv _ forall_mem_none

/-- The name of an exported file. -/
theorem basename_length {attempt : ByteText} (h : attempt.length ≤ 64) (side : Side) :
    (attempt ++ lit "_" ++ sideName side ++ lit ".mcal").length ≤ 80 := by
  have hside := sideName_length_le side
  have h₁ : (lit "_").length = 1 := rfl
  have h₂ : (lit ".mcal").length = 5 := rfl
  simp only [List.length_append, h₁, h₂]
  omega

theorem sha256Hex_length (data : List UInt8) : (sha256Hex data).length = 64 := by
  have hword : ∀ word, (Sha256.hexWord word).length = 8 := fun word => rfl
  rw [sha256Hex, List.length_flatMap]
  simp only [hword, List.map_const', List.sum_replicate, Vector.length_toList]
  rfl

theorem saveGlove (henv : env.Sized) (h : m.Sized) (hstate : m.engine.state = .saving)
    (hworking : m.engine.Working) (glove : GloveRef) {bytes : List UInt8}
    (hbytes : bytes.length < 2 ^ 64) : (m.saveGlove env config glove bytes).Sized := by
  have hname := basename_length h.engine.attempt glove.side
  have herror := henv.write m.trace m.engine.outDir
    (m.engine.attempt ++ lit "_" ++ sideName glove.side ++ lit ".mcal") bytes
  have hdir := h.engine.outDir
  rw [Machine.saveGlove]
  dsimp only
  -- From here on only the lengths of the name and of the error matter.
  generalize m.engine.attempt ++ lit "_" ++ sideName glove.side ++ lit ".mcal" = basename
    at hname herror ⊢
  generalize env.write m.trace m.engine.outDir basename bytes = error at herror ⊢
  have hrecorded : (m.record env (.write m.engine.outDir basename bytes error)).Sized :=
    h.recordCall rfl
  have hengine := Machine.record_engine env m (.write m.engine.outDir basename bytes error)
  generalize m.record env (.write m.engine.outDir basename bytes error) = m₁
    at hrecorded hengine ⊢
  rw [← hengine] at hstate hworking
  cases error with
  | some error =>
    refine hrecorded.failed henv (by decide) ?_ forall_mem_none
    have hlength := herror error rfl
    omega
  | none =>
    -- The glove at hand is not among the exported ones.
    have hroom : m₁.engine.exported.length + 1 ≤ 2 := by
      have hpinned := hrecorded.engine.pinned
      obtain ⟨hindex, hexported⟩ := hworking
      omega
    have hupdated : (m₁.update fun e => { e with exported := e.exported ++
        [{ side := glove.side, file := basename, bytes := bytes.length
           sha256 := sha256Hex bytes }] }).Sized := by
      refine hrecorded.update
        { hrecorded.engine with exported := ?_, files := ?_, working := ?_, fresh := ?_ }
      · rw [List.length_append]
        exact hroom
      · intro f hf
        rcases List.mem_append.mp hf with hf | hf
        · exact hrecorded.engine.files f hf
        · rw [List.mem_singleton.mp hf]
          exact ⟨hname, hbytes, (sha256Hex_length bytes).le⟩
      · rintro (h | h) <;> cases hstate.symm.trans h
      · rintro (h | h) <;> cases hstate.symm.trans h
    refine nextGlove henv (hupdated.emit ?_) ?_ ?_
    · exact ⟨hrecorded.engine.attempt, hname, hbytes, (sha256Hex_length bytes).le⟩
    · rw [Machine.emit_engine]
      exact hstate
    · rw [Machine.emit_engine]
      show (m₁.engine.exported ++ [_]).length ≤ m₁.engine.gloveIndex + 1
      rw [List.length_append]
      exact Nat.succ_le_succ hworking.2

theorem exportGlove (henv : env.Sized) (h : m.Sized) (hstate : m.engine.state = .saving)
    (hworking : m.engine.Working) (glove : GloveRef) :
    (m.exportGlove env config glove).Sized := by
  have hreply := henv.exportCalibration m.trace glove.gloveId
  rcases heq : env.exportCalibration m.trace glove.gloveId with ⟨exported, bytes⟩
  rw [heq] at hreply
  simp only [Machine.exportGlove, heq]
  have hrecorded : (m.record env (.exportCalibration glove exported bytes)).Sized :=
    h.recordCall rfl
  have hengine := Machine.record_engine env m (.exportCalibration glove exported bytes)
  generalize m.record env (.exportCalibration glove exported bytes) = m₁ at hrecorded hengine ⊢
  rw [← hengine] at hstate hworking
  split
  · exact hrecorded.failed henv (by decide) (hreply.1.trans (by decide)) forall_mem_none
  split
  · exact hrecorded.fail henv (by decide) forall_mem_none
  split
  · rename_i hcancel
    exact of_pair (hrecorded.terminateIfCancelled henv) hcancel
  · rename_i hcancel
    obtain ⟨rfl, -⟩ := terminateIfCancelled_false hcancel
    exact hrecorded.saveGlove henv hstate hworking glove hreply.2

theorem finishGlove (henv : env.Sized) (h : m.Sized) (hworking : m.engine.Working) :
    (m.finishGlove env config).Sized := by
  rw [Machine.finishGlove]
  dsimp only
  split
  · rename_i hcheck
    exact of_pair (h.checkGloves henv) hcheck
  rename_i m₁ hcheck
  have h₁ : m₁.Sized := of_pair (h.checkGloves henv) hcheck
  rw [← checkGloves_engine hcheck] at hworking
  have hmessage := henv.finish m₁.trace m.engine.glove.gloveId
  generalize env.finish m₁.trace m.engine.glove.gloveId = finished at hmessage ⊢
  have hrecorded : (m₁.record env (.finish m.engine.glove finished)).Sized := h₁.recordCall rfl
  have hengine := Machine.record_engine env m₁ (.finish m.engine.glove finished)
  generalize m₁.record env (.finish m.engine.glove finished) = m₂ at hrecorded hengine ⊢
  rw [← hengine] at hworking
  split
  · exact hrecorded.failed henv (by decide) (hmessage.trans (by decide)) forall_mem_none
  -- Saving is no working state, so no file is owed meanwhile.
  have hsaving : ((m₂.update fun e =>
      { e with calibrating := false, state := .saving }).emitStatus env .saving).Sized := by
    refine emitStatus (hrecorded.update ?_) _
    exact { hrecorded.engine with
      working := by rintro (h | h) <;> cases h
      fresh := by rintro (h | h) <;> cases h
      asked := fun h => by cases h }
  split
  · rename_i hcancel
    exact of_pair (hsaving.terminateIfCancelled henv) hcancel
  · rename_i hcancel
    obtain ⟨rfl, -⟩ := terminateIfCancelled_false hcancel
    refine hsaving.exportGlove henv ?_ ?_ _
    · rw [Machine.emitStatus_engine]
      rfl
    · rw [Machine.emitStatus_engine]
      exact hworking

theorem stepDone (henv : env.Sized) (h : m.Sized) (hworking : m.engine.Working) :
    (m.stepDone env config).Sized := by
  have hupdated : (m.update fun e => { e with stepIndex := (e.stepIndex + 1) % 2 ^ 32 }).Sized :=
    h.update { h.engine with stepIndex := Nat.mod_lt _ (by decide) }
  rw [Machine.stepDone]
  split
  · exact hupdated.offerPrompt henv hworking
  · exact hupdated.finishGlove henv hworking

theorem advanceCapture (henv : env.Sized) (h : m.Sized) (hworking : m.engine.Working) :
    (m.advanceCapture env config).Sized := by
  rw [Machine.advanceCapture]
  have hrecorded : (m.record env (.clock (env.nowS m.trace))).Sized := h.recordCall rfl
  have hengine := Machine.record_engine env m (.clock (env.nowS m.trace))
  generalize m.record env (.clock (env.nowS m.trace)) = m₁ at hrecorded hengine ⊢
  rw [← hengine] at hworking
  have hprogress : ∀ now elapsed, (m₁.reportProgress env now elapsed).Sized := by
    intro now elapsed
    exact (hrecorded.update { hrecorded.engine with }).emit
      ⟨hrecorded.engine.attempt, hrecorded.engine.token⟩
  split
  · split
    · refine (hprogress _ _).stepDone henv ?_
      rw [Machine.reportProgress, Machine.emit_engine]
      exact hworking
    · exact hrecorded.stepDone henv hworking
  · split
    · exact hprogress _ _
    · exact hrecorded

/-! ### Discovery -/

theorem foundGloves_length_le (landscape : List SdkGlove) (sides : List Side) :
    (Machine.foundGloves landscape sides).length ≤ sides.length :=
  List.length_filterMap_le ..

/-- No side is missing: there is a glove for each. -/
theorem foundGloves_length {landscape : List SdkGlove} {sides : List Side}
    (h : Machine.missingSides landscape sides = []) :
    (Machine.foundGloves landscape sides).length = sides.length := by
  induction sides with
  | nil => rfl
  | cons side sides ih =>
    rw [Machine.missingSides, List.filter_cons] at h
    split at h
    · cases h
    · rename_i hfound
      cases hfind : landscape.find? fun g => g.side = side with
      | none =>
        rw [hfind] at hfound
        exact absurd rfl hfound
      | some g =>
        rw [Machine.foundGloves, List.filterMap_cons, hfind]
        exact congrArg (· + 1) (ih h)

omit [CppDouble τ] in
theorem reportGloves (h : m.Sized) {found : List GloveRef} (hfound : found.length ≤ 2) :
    (m.reportGloves env found).Sized := by
  rw [Machine.reportGloves]
  split
  · exact emitStatus (h.update { h.engine with reported := hfound }) _
  · exact h

omit [CppDouble τ] in
theorem reportGloves_engine (found : List GloveRef) :
    (m.reportGloves env found).engine = { m.engine with lastReportedGloves := found } := by
  rw [Machine.reportGloves]
  split
  · rw [Machine.emitStatus_engine]
    rfl
  · rename_i hsame
    rw [not_not.mp hsame]

theorem names_length {sides : List Side} (h : sides.length ≤ 2) :
    ((lit ", ").intercalate (sides.map sideName)).length ≤ 12 := by
  match sides with
  | [] => exact Nat.zero_le _
  | [a] =>
    have ha := sideName_length_le a
    simp only [List.map_cons, List.map_nil, List.intercalate, List.intersperse_singleton,
      List.flatten_singleton]
    omega
  | [a, b] =>
    have ha := sideName_length_le a
    have hb := sideName_length_le b
    have hcomma : (lit ", ").length = 2 := rfl
    simp only [List.map_cons, List.map_nil, List.intercalate, List.intersperse_cons_cons,
      List.intersperse_singleton, List.flatten_cons, List.flatten_nil, List.length_append,
      List.length_nil, hcomma]
    omega
  | a :: b :: c :: rest =>
    simp only [List.length_cons] at h
    omega

section Discovery

variable (hseconds : (signed (CppDouble.toInt config.discoveryTimeoutS)).length ≤ 20)

include hseconds

theorem settleDiscovery (henv : env.Sized) (h : m.Sized) (hstate : m.engine.state = .discovering)
    (now : τ) {found : List GloveRef} (hfound : found.length ≤ 2) {missing : List Side}
    (hall : m.engine.connected = true → missing = [] → found ≠ []) :
    (m.settleDiscovery env config now found missing).Sized := by
  have hreported : (m.reportGloves env found).Sized := h.reportGloves hfound
  have hengine : (m.reportGloves env found).engine =
      { m.engine with lastReportedGloves := found } := reportGloves_engine found
  rw [Machine.settleDiscovery]
  dsimp only
  generalize m.reportGloves env found = m₁ at hreported hengine ⊢
  split
  · -- Every glove that was asked for is there: the first one begins.
    rename_i hready
    rw [Bool.and_eq_true, List.isEmpty_iff] at hready
    have hconnected : m.engine.connected = true := by
      rw [hengine] at hready
      exact hready.1
    have hstate₁ : m₁.engine.state = .discovering := by
      rw [hengine]
      exact hstate
    obtain ⟨hindex, hexported⟩ := hreported.engine.fresh (.inr hstate₁)
    refine (hreported.update ?_).beginGlove henv ?_
    · exact { hreported.engine with
        pinned := hfound
        working := by rintro (h | h) <;> cases hstate₁.symm.trans h }
    · refine ⟨?_, ?_⟩
      · show m₁.engine.gloveIndex < found.length
        rw [hindex]
        exact List.length_pos_of_ne_nil (hall hconnected hready.2)
      · show m₁.engine.exported.length ≤ _
        rw [hexported]
        exact Nat.zero_le _
  split
  · -- Discovery timed out: the message names the missing sides, and there are two at most.
    refine hreported.fail henv ?_ forall_mem_none
    have hunseen : (m₁.engine.sides.filter fun side => !found.any fun g => g.side = side).length
        ≤ 2 := (List.length_filter_le ..).trans hreported.engine.sides
    have hnames := names_length hunseen
    have h₁ : (lit "no ").length = 3 := rfl
    have h₂ : (lit " glove discovered within ").length = 25 := rfl
    have h₃ : (lit " s").length = 2 := rfl
    simp only [List.length_append, h₁, h₂, h₃]
    omega
  · exact hreported

theorem discover (henv : env.Sized) (h : m.Sized) (hstate : m.engine.state = .discovering)
    (now : τ) : (m.discover env config now).Sized := by
  rw [Machine.discover]
  split
  · have hrecorded : (m.record env (.gloves (env.gloves m.trace))).Sized := h.recordCall rfl
    refine hrecorded.settleDiscovery hseconds henv ?_ now ?_ fun _ hmissing => ?_
    · rw [Machine.record_engine]
      exact hstate
    · exact (foundGloves_length_le _ _).trans hrecorded.engine.sides
    · intro hnil
      have hlength := foundGloves_length hmissing
      rw [hnil] at hlength
      refine hrecorded.engine.asked ?_ (List.length_eq_zero_iff.mp hlength.symm)
      rw [Machine.record_engine]
      exact hstate
  · rename_i hoffline
    exact h.settleDiscovery hseconds henv hstate now (Nat.zero_le _) fun hon => absurd hon hoffline

theorem pollDiscovery (henv : env.Sized) (h : m.Sized) (hstate : m.engine.state = .discovering) :
    (m.pollDiscovery env config).Sized := by
  rw [Machine.pollDiscovery]
  dsimp only
  have hrecorded : (m.record env (.clock (env.nowS m.trace))).Sized := h.recordCall rfl
  have hengine := Machine.record_engine env m (.clock (env.nowS m.trace))
  generalize m.record env (.clock (env.nowS m.trace)) = m₁ at hrecorded hengine ⊢
  rw [← hengine] at hstate
  split
  · have hupdated : (m₁.update fun e => { e with lastConnectS := env.nowS m.trace }).Sized :=
      hrecorded.update { hrecorded.engine with }
    have hstate₂ : (m₁.update fun e => { e with lastConnectS := env.nowS m.trace }).engine.state =
        .discovering := hstate
    generalize (m₁.update fun e => { e with lastConnectS := env.nowS m.trace }) = m₂
      at hupdated hstate₂ ⊢
    -- The message of a failed connection is bounded by the environment.
    have hmessage := henv.connect m₂.trace
    generalize env.connect m₂.trace = connect at hmessage ⊢
    have hconnected : (m₂.record env (.connect connect)).Sized := hupdated.recordCall rfl
    split
    · exact hconnected.failed henv (by decide) (hmessage.trans (by decide)) forall_mem_none
    · refine (hconnected.update { hconnected.engine with }).discover hseconds henv ?_ _
      rw [Machine.update_engine, Machine.record_engine]
      exact hstate₂
  · exact hrecorded.discover hseconds henv hstate _

end Discovery

/-! ### Commands -/

omit [CppDouble τ] in
theorem reject (h : m.Sized) {command attempt message : ByteText} {token : Option ByteText}
    (reason : RejectReason) (hcommand : command.length ≤ 16) (hattempt : attempt.length ≤ 64)
    (hmessage : message.length ≤ 128) (htoken : ∀ t ∈ token, t.length ≤ 128) :
    (m.reject env command attempt reason message token).Sized := by
  refine h.emit ⟨fun a ha => ?_, hcommand, hmessage, htoken⟩
  rw [← Option.some_inj.mp ha]
  exact hattempt

theorem openAttempt (h : m.Sized) (hstate : m.engine.state = .idle) {command : StartCommand}
    (hcommand : (Command.start command).Sized) : (m.openAttempt env config command).Sized := by
  have hfresh := h.engine.fresh (.inl hstate)
  have hopened : (m.update fun e => { e with
      attempt := command.attempt, sides := command.sides, outDir := command.outDir
      state := .discovering }).Sized :=
    h.update { h.engine with
      attempt := hcommand.1
      outDir := hcommand.2
      sides := command.sides_length
      working := by rintro (h | h) <;> cases h
      fresh := fun _ => hfresh
      asked := fun _ => command.sides_ne_nil }
  rw [Machine.openAttempt]
  generalize (m.update fun e => { e with
      attempt := command.attempt, sides := command.sides, outDir := command.outDir
      state := .discovering }) = m₁ at hopened ⊢
  have hrecorded : (m₁.record env (.clock (env.nowS m₁.trace))).Sized := hopened.recordCall rfl
  refine update (emitStatus (hrecorded.update ?_) _) ?_
  · exact { hrecorded.engine with }
  · rw [Machine.emitStatus_engine]
    exact { hrecorded.engine with }

theorem beginAttempt (henv : env.Sized) (h : m.Sized) {command : StartCommand}
    (hcommand : (Command.start command).Sized) : (m.beginAttempt env config command).Sized := by
  rw [Machine.beginAttempt]
  split
  · exact h.reject _ (by decide) hcommand.1 (by decide) forall_mem_none
  rename_i hidle
  dsimp only
  generalize env.directoryUsable m.trace command.outDir = usable
  have hrecorded : (m.record env (.directoryUsable command.outDir usable)).Sized := h.recordCall rfl
  split
  · exact hrecorded.reject _ (by decide) hcommand.1 (by decide) forall_mem_none
  -- An idle engine opens the attempt, and the SDK is brought up in it.
  have hopened : ((m.record env (.directoryUsable command.outDir usable)).openAttempt env config
      command).Sized := by
    refine hrecorded.openAttempt ?_ hcommand
    rw [Machine.record_engine]
    exact not_not.mp hidle
  generalize (m.record env (.directoryUsable command.outDir usable)).openAttempt env config
    command = m₁ at hopened ⊢
  have hmessage := henv.initializeSdk m₁.trace
  generalize env.initializeSdk m₁.trace = init at hmessage ⊢
  have hinit : (m₁.record env (.initializeSdk init)).Sized := hopened.recordCall rfl
  split
  · exact hinit.failed henv (by decide) (hmessage.trans (by decide)) forall_mem_none
  · exact hinit

theorem startConfirmed (henv : env.Sized) (h : m.Sized) (hworking : m.engine.Working)
    {token : ByteText} (htoken : token.length ≤ 128) :
    (m.startConfirmed env config token).Sized := by
  rw [Machine.startConfirmed]
  dsimp only
  have hmessage := henv.startStep m.trace m.engine.glove.gloveId m.engine.stepIndex
  generalize env.startStep m.trace m.engine.glove.gloveId m.engine.stepIndex = started
    at hmessage ⊢
  have hrecorded : (m.record env (.startStep m.engine.glove m.engine.stepIndex started)).Sized :=
    h.recordCall rfl
  have hengine := Machine.record_engine env m
    (.startStep m.engine.glove m.engine.stepIndex started)
  generalize m.record env (.startStep m.engine.glove m.engine.stepIndex started) = m₁
    at hrecorded hengine ⊢
  rw [← hengine] at hworking
  split
  · refine hrecorded.failed henv (by decide) (hmessage.trans (by decide)) fun n hn => ?_
    rw [← Option.some_inj.mp hn]
    exact hrecorded.engine.stepIndex
  have haccepted : ((m₁.update fun e =>
      { e with acceptedTokens := e.acceptedTokens ++ [token] }).emit env (.stepAccepted
        { attempt := m₁.engine.attempt, token := token })).Sized :=
    (hrecorded.update { hrecorded.engine with }).emit ⟨hrecorded.engine.attempt, htoken⟩
  have hworking₂ : ((m₁.update fun e =>
      { e with acceptedTokens := e.acceptedTokens ++ [token] }).emit env (.stepAccepted
        { attempt := m₁.engine.attempt, token := token })).engine.Working := by
    rw [Machine.emit_engine]
    exact hworking
  have hcapturing : Engine.Sized { ((m₁.update fun e =>
      { e with acceptedTokens := e.acceptedTokens ++ [token] }).emit env (.stepAccepted
        { attempt := m₁.engine.attempt, token := token })).engine with state := .capturingStep } :=
    { haccepted.engine with
      working := fun _ => hworking₂
      fresh := by rintro (h | h) <;> cases h
      asked := fun h => by cases h }
  split
  · rename_i hcancel
    exact of_pair (haccepted.terminateIfCancelled henv) hcancel
  · rename_i hcancel
    obtain ⟨rfl, -⟩ := terminateIfCancelled_false hcancel
    split
    · -- the step is paced
      refine emit (emitStatus (update (recordCall (haccepted.update ?_) rfl) ?_) _) ?_
      · exact hcapturing
      · rw [Machine.record_engine]
        exact { hcapturing with }
      · simp only [Machine.emitStatus_engine, Machine.update_engine, Machine.record_engine]
        exact ⟨hcapturing.attempt, hcapturing.token⟩
    · exact haccepted.stepDone henv hworking₂

theorem handleConfirm (henv : env.Sized) (h : m.Sized) {command : ConfirmCommand}
    (hcommand : (Command.confirm command).Sized) :
    (m.handleConfirm env config command).Sized := by
  obtain ⟨hattempt, htoken⟩ := hcommand
  -- The token is quoted in every refusal.
  have htoken' : ∀ t ∈ some command.token, t.length ≤ 128 := by
    intro t ht
    rw [← Option.some_inj.mp ht]
    exact htoken
  rw [Machine.handleConfirm]
  split
  · exact h.reject _ (by decide) hattempt (by decide) htoken'
  split
  · exact h.emit ⟨h.engine.attempt, htoken⟩
  split
  · exact h.reject _ (by decide) hattempt (by decide) htoken'
  rename_i hawaiting
  split
  · exact h.reject _ (by decide) hattempt (by decide) htoken'
  split
  · rename_i hcheck
    exact of_pair (h.checkGloves henv) hcheck
  · rename_i hcheck
    refine startConfirmed henv (of_pair (h.checkGloves henv) hcheck) ?_ htoken
    rw [checkGloves_engine hcheck]
    exact h.engine.working (.inl (not_not.mp hawaiting))

omit [CppDouble τ] in
theorem handleCancel (henv : env.Sized) (h : m.Sized) {command : CancelCommand}
    (hcommand : (Command.cancel command).Sized) : (m.handleCancel env command).Sized := by
  rw [Machine.handleCancel]
  split
  · exact h.reject _ (by decide) hcommand (by decide) forall_mem_none
  · exact h.requestCancel.terminateIfCancelled henv

theorem handle (henv : env.Sized) (h : m.Sized) {command : Command} (hcommand : command.Sized) :
    (m.handle env config command).Sized := by
  rw [Machine.handle]
  split
  · exact h
  split
  · rename_i hcancel
    exact of_pair (h.terminateIfCancelled henv) hcancel
  · rename_i hcancel
    obtain ⟨rfl, -⟩ := terminateIfCancelled_false hcancel
    cases command with
    | start command => exact h.beginAttempt henv hcommand
    | confirm command => exact h.handleConfirm henv hcommand
    | cancel command => exact h.handleCancel henv hcommand

variable (hseconds : (signed (CppDouble.toInt config.discoveryTimeoutS)).length ≤ 20)

include hseconds

theorem tick (henv : env.Sized) (h : m.Sized) : (m.tick env config).Sized := by
  rw [Machine.tick]
  split
  · exact h
  split
  · rename_i hcancel
    exact of_pair (h.terminateIfCancelled henv) hcancel
  · rename_i hcancel
    obtain ⟨rfl, -⟩ := terminateIfCancelled_false hcancel
    split
    · rename_i hstate
      exact h.pollDiscovery hseconds henv hstate
    · exact h.checkGloves henv
    · rename_i hstate
      split
      · rename_i hcheck
        exact of_pair (h.checkGloves henv) hcheck
      · rename_i hcheck
        refine advanceCapture henv (of_pair (h.checkGloves henv) hcheck) ?_
        rw [checkGloves_engine hcheck]
        exact h.engine.working (.inr hstate)
    · exact h
    · exact h
    · exact h

/-- **One call keeps every text short.** -/
theorem step (henv : env.Sized) (h : m.Sized) {input : Input}
    (hinput : ∀ command, input = .handle command → command.Sized) :
    (m.step env config input).Sized := by
  have hrecorded : (m.record env (.input input)).Sized := h.recordCall rfl
  cases input with
  | handle command => exact hrecorded.handle henv (hinput command rfl)
  | tick => exact hrecorded.tick hseconds henv
  | requestCancel => exact hrecorded.requestCancel

end Methods

end Machine.Sized

end Calibration
