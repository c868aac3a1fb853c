/-
The export writer of the calibration worker.

An export is written under a temporary name, flushed, linked to its final name and unlinked
under the temporary one.  Every system call may fail, and writing may be short or interrupted;
a call that fails changes nothing.

* `write` — `PosixExportWriter::write`, with the outcomes of its calls;
* `writeLoop_returns` — when the loop that writes the bytes comes to an end;
* `export_atomic` — what is on disk after an export that succeeds, and after one that fails.
-/
import IsaacTeleop.ByteText

open ByteText

namespace ExportWriter

/-! ### Names and files -/

/-- A path or a name.  A path with a NUL byte is refused with the command that brings it. -/
structure CString where
  bytes : ByteText
  noNul : 0 ∉ bytes

inductive Entry
  | file (bytes : ByteText)
  /-- A directory, a link or a device. -/
  | other
  deriving DecidableEq

abbrev Fs := ByteText → Option Entry

/-! ### System calls -/

/-- A call succeeds, or fails with the text of its `errno`. -/
abbrev Outcome := Option ByteText

inductive WriteCall
  /-- So many bytes, of those that are left. -/
  | wrote (n : ℕ)
  /-- `EINTR` -/
  | interrupted
  | failed (error : ByteText)
  deriving DecidableEq

/-- The outcomes of the calls of one export, as far as the file system leaves them open. -/
structure Calls where
  openPart : Outcome
  writes : ℕ → WriteCall
  fsync : Outcome
  close : Outcome
  link : Outcome
  unlink : Outcome

/-- The text of `EEXIST`. -/
def fileExists : ByteText := lit "File exists"

/-- `open` with `O_CREAT | O_EXCL` -/
def openExcl (outcome : Outcome) (fs : Fs) (path : ByteText) : Except ByteText Fs :=
  match outcome with
  | some error => .error error
  | none =>
    if fs path = none then .ok (Function.update fs path (some (.file []))) else .error fileExists

def link (outcome : Outcome) (fs : Fs) (old new : ByteText) : Except ByteText Fs :=
  match outcome with
  | some error => .error error
  | none => if fs new = none then .ok (Function.update fs new (fs old)) else .error fileExists

/-- `unlink`, whose result is not looked at. -/
def unlink (outcome : Outcome) (fs : Fs) (path : ByteText) : Fs :=
  match outcome with
  | some _ => fs
  | none => Function.update fs path none

/-! ### Writing -/

def errnoText (what error : ByteText) : ByteText := what ++ lit ": " ++ error

/-- The loop over `::write`, from its turn `turn` on: none when `fuel` runs out, otherwise how much
was written and the error if there was one. -/
def writeLoop (writes : ℕ → WriteCall) (size : ℕ) : ℕ → ℕ → ℕ → Option (ℕ × Outcome)
  | 0, _, _ => none
  | fuel + 1, turn, written =>
    if written < size then
      match writes turn with
      | .interrupted => writeLoop writes size fuel (turn + 1) written
      | .failed error => some (written, some error)
      | .wrote n => writeLoop writes size fuel (turn + 1) (written + min n (size - written))
    else some (written, none)

def finalPath (dir basename : CString) : ByteText := dir.bytes ++ lit "/" ++ basename.bytes

def partPath (dir basename : CString) : ByteText := finalPath dir basename ++ lit ".part"

/-- What follows the last `::write`. -/
def publish (calls : Calls) (fs : Fs) (part final : ByteText) : Outcome × Fs :=
  match calls.fsync with
  | some error =>
        (some (errnoText (lit "cannot flush " ++ part) error), unlink calls.unlink fs part)
  | none =>
    match calls.close with
    | some error =>
      (some (errnoText (lit "cannot close " ++ part) error), unlink calls.unlink fs part)
    | none =>
      match link calls.link fs part final with
      | .error error =>
        (some (errnoText (lit "cannot publish " ++ final) error), unlink calls.unlink fs part)
      -- The flush of the directory that follows changes nothing here.
      | .ok fs => (none, unlink calls.unlink fs part)

/-- What follows the loop, with its result. -/
def finish (calls : Calls) (fs : Fs) (part final bytes : ByteText) (result : ℕ × Outcome) :
    Outcome × Fs :=
  let fs := Function.update fs part (some (.file (bytes.take result.1)))
  match result.2 with
  | some error =>
    (some (errnoText (lit "cannot write " ++ part) error), unlink calls.unlink fs part)
  | none => publish calls fs part final

/-- A name that is not taken. -/
def BadName (basename : CString) : Prop := basename.bytes = [] ∨ byte '/' ∈ basename.bytes

instance (basename : CString) : Decidable (BadName basename) :=
  inferInstanceAs (Decidable (_ ∨ _))

/-- `PosixExportWriter::write`: the error if there is one, and what is on disk then. -/
def write (calls : Calls) (fuel : ℕ) (fs : Fs) (dir basename : CString) (bytes : ByteText) :
    Option (Outcome × Fs) :=
  if BadName basename then some (some (lit "invalid export file name"), fs)
  else
    let final := finalPath dir basename
    let part := partPath dir basename
    match openExcl calls.openPart fs part with
    | .error error => some (some (errnoText (lit "cannot create " ++ part) error), fs)
    | .ok fs =>
      (writeLoop calls.writes bytes.length fuel 0 0).map (finish calls fs part final bytes)

/-! ### The loop -/

/-- What the first `turns` calls write. -/
def amount (writes : ℕ → WriteCall) : ℕ → ℕ
  | 0 => 0
  | turn + 1 => amount writes turn + match writes turn with
    | .wrote n => n
    | .interrupted => 0
    | .failed _ => 0

/-- Some call fails, or all calls together write everything. -/
def Ends (writes : ℕ → WriteCall) (size : ℕ) : Prop :=
  ∃ turns, size ≤ amount writes turns ∨ ∃ error, writes turns = .failed error

theorem writeLoop_spec {writes : ℕ → WriteCall} {size fuel turn written : ℕ}
    {result : ℕ × Outcome} (h : writeLoop writes size fuel turn written = some result)
    (hwritten : written ≤ size) : result.2 = none → result.1 = size := by
  induction fuel generalizing turn written with
  | zero => cases h
  | succ fuel ih =>
    rw [writeLoop] at h
    by_cases hlt : written < size
    · rw [if_pos hlt] at h
      cases hcall : writes turn with
      | interrupted =>
        rw [hcall] at h
        exact ih h hwritten
      | failed error =>
        rw [hcall] at h
        obtain rfl := Option.some_inj.mp h
        exact nofun
      | wrote n =>
        rw [hcall] at h
        exact ih h (by omega)
    · rw [if_neg hlt] at h
      obtain rfl := Option.some_inj.mp h
      exact fun _ => le_antisymm hwritten (not_lt.mp hlt)

section Returns

variable {writes : ℕ → WriteCall} {size : ℕ}

theorem amount_succ (writes : ℕ → WriteCall) (turn n : ℕ) (h : writes turn = .wrote n) :
    amount writes (turn + 1) = amount writes turn + n := by
  rw [amount, h]

theorem amount_succ_interrupted (writes : ℕ → WriteCall) (turn : ℕ)
    (h : writes turn = .interrupted) : amount writes (turn + 1) = amount writes turn := by
  rw [amount, h]
  rfl

theorem writeLoop_done (fuel : ℕ) {turn : ℕ} (h : size ≤ amount writes turn) :
    writeLoop writes size (fuel + 1) turn (min size (amount writes turn)) = some (size, none) := by
  rw [writeLoop, if_neg (by omega), min_eq_left h]

theorem writeLoop_failed (fuel : ℕ) {turn : ℕ} {error : ByteText}
    (h : amount writes turn < size) (hcall : writes turn = .failed error) :
    writeLoop writes size (fuel + 1) turn (min size (amount writes turn)) =
      some (amount writes turn, some error) := by
  rw [writeLoop, if_pos (by omega), hcall, min_eq_right h.le]

/-- One more turn, when the calls before it have not written everything. -/
theorem writeLoop_turn (fuel : ℕ) {turn : ℕ} (h : amount writes turn < size)
    (hcall : ∀ error, writes turn ≠ .failed error) :
    writeLoop writes size (fuel + 1) turn (min size (amount writes turn)) =
      writeLoop writes size fuel (turn + 1) (min size (amount writes (turn + 1))) := by
  rw [writeLoop, if_pos (by omega)]
  cases hkind : writes turn with
  | interrupted =>
    dsimp only
    rw [amount_succ_interrupted writes turn hkind]
  | failed error => exact absurd hkind (hcall error)
  | wrote n =>
    dsimp only
    rw [amount_succ writes turn n hkind]
    congr 1
    omega

theorem ends_of_writeLoop (fuel turn : ℕ) (result : ℕ × Outcome)
    (h : writeLoop writes size fuel turn (min size (amount writes turn)) = some result) :
    Ends writes size := by
  induction fuel generalizing turn with
  | zero => cases h
  | succ fuel ih =>
    by_cases hall : size ≤ amount writes turn
    · exact ⟨turn, .inl hall⟩
    · by_cases hfailed : ∃ error, writes turn = .failed error
      · exact ⟨turn, .inr hfailed⟩
      · rw [writeLoop_turn fuel (not_le.mp hall) (not_exists.mp hfailed)] at h
        exact ih _ h

theorem writeLoop_of_ends {turns : ℕ}
    (hend : size ≤ amount writes turns ∨ ∃ error, writes turns = .failed error) (d : ℕ) :
    ∀ turn, turn + d = turns → ∃ fuel result,
      writeLoop writes size fuel turn (min size (amount writes turn)) = some result := by
  induction d with
  | zero =>
    rintro turn rfl
    rw [Nat.add_zero] at hend
    by_cases hall : size ≤ amount writes turn
    · exact ⟨1, _, writeLoop_done 0 hall⟩
    · obtain ⟨error, hfailed⟩ := hend.resolve_left hall
      exact ⟨1, _, writeLoop_failed 0 (not_le.mp hall) hfailed⟩
  | succ d ih =>
    intro turn hturn
    obtain ⟨fuel, result, hrest⟩ := ih (turn + 1) (by omega)
    by_cases hall : size ≤ amount writes turn
    · exact ⟨fuel + 1, _, writeLoop_done fuel hall⟩
    · by_cases hfailed : ∃ error, writes turn = .failed error
      · obtain ⟨error, herror⟩ := hfailed
        exact ⟨fuel + 1, _, writeLoop_failed fuel (not_le.mp hall) herror⟩
      · refine ⟨fuel + 1, result, ?_⟩
        rw [writeLoop_turn fuel (not_le.mp hall) (not_exists.mp hfailed)]
        exact hrest

/-- **The loop comes to an end** when a call fails or everything is written, and only then. -/
theorem writeLoop_returns :
    (∃ fuel result, writeLoop writes size fuel 0 0 = some result) ↔ Ends writes size := by
  have hzero : min size (amount writes 0) = 0 := Nat.min_zero size
  constructor
  · rintro ⟨fuel, result, h⟩
    refine ends_of_writeLoop fuel 0 result ?_
    rw [hzero]
    exact h
  · rintro ⟨turns, hend⟩
    obtain ⟨fuel, result, h⟩ := writeLoop_of_ends hend turns 0 (Nat.zero_add turns)
    rw [hzero] at h
    exact ⟨fuel, result, h⟩

end Returns

/-! ### The file system -/

theorem part_ne_final (dir basename : CString) :
    partPath dir basename ≠ finalPath dir basename := by
  intro h
  have hlength := congrArg List.length h
  have hsuffix : 0 < (lit ".part").length := by decide
  rw [partPath, List.length_append] at hlength
  omega

/-- What an export that fails leaves: nothing has changed, or the part file it has created could
not be unlinked. -/
def Failed (calls : Calls) (fs : Fs) (part : ByteText) (fs' : Fs) : Prop :=
  fs' = fs ∨ calls.unlink ≠ none ∧ fs part = none ∧
    ∃ bytes, fs' = Function.update fs part (some (.file bytes))

/-- Unlinking takes back what has been created. -/
theorem failed_unlink {calls : Calls} {fs : Fs} {part : ByteText} (hnew : fs part = none)
    (bytes : ByteText) :
    Failed calls fs part
      (unlink calls.unlink (Function.update fs part (some (.file bytes))) part) := by
  unfold unlink
  cases hunlink : calls.unlink with
  | some error => exact .inr ⟨by rw [hunlink]; exact nofun, hnew, bytes, rfl⟩
  | none =>
    left
    dsimp only
    rw [Function.update_idem, ← hnew, Function.update_eq_self]

/-- **Publishing**: the final name is new and holds the file, or the export has failed. -/
theorem publish_spec (calls : Calls) {fs : Fs} {part final : ByteText} (bytes : ByteText)
    (hne : part ≠ final) (hnew : fs part = none) :
    ((publish calls (Function.update fs part (some (.file bytes))) part final).1 ≠ none →
      Failed calls fs part
        (publish calls (Function.update fs part (some (.file bytes))) part final).2) ∧
    ((publish calls (Function.update fs part (some (.file bytes))) part final).1 = none →
      fs final = none ∧
      (publish calls (Function.update fs part (some (.file bytes))) part final).2 =
        unlink calls.unlink (Function.update (Function.update fs part (some (.file bytes))) final
          (some (.file bytes))) part) := by
  unfold publish
  cases calls.fsync with
  | some error => exact ⟨fun _ => failed_unlink hnew bytes, nofun⟩
  | none =>
    cases calls.close with
    | some error => exact ⟨fun _ => failed_unlink hnew bytes, nofun⟩
    | none =>
      dsimp only
      unfold link
      cases calls.link with
      | some error => exact ⟨fun _ => failed_unlink hnew bytes, nofun⟩
      | none =>
        dsimp only
        rw [Function.update_of_ne hne.symm, Function.update_self]
        -- A link never replaces a file that stands under the final name.
        by_cases hfinal : fs final = none
        · rw [if_pos hfinal]
          exact ⟨fun h => absurd rfl h, fun _ => ⟨hfinal, rfl⟩⟩
        · rw [if_neg hfinal]
          exact ⟨fun _ => failed_unlink hnew bytes, nofun⟩

section Write

variable {calls : Calls} {fs : Fs} {dir basename : CString} {bytes : ByteText}

theorem openExcl_cases (outcome : Outcome) (fs : Fs) (path : ByteText) :
    ((outcome ≠ none ∨ fs path ≠ none) ∧ ∃ error, openExcl outcome fs path = .error error) ∨
      (outcome = none ∧ fs path = none) ∧
        openExcl outcome fs path = .ok (Function.update fs path (some (.file []))) := by
  cases outcome with
  | some error => exact .inl ⟨.inl nofun, error, rfl⟩
  | none =>
    by_cases hpath : fs path = none
    · exact .inr ⟨⟨rfl, hpath⟩, if_pos hpath⟩
    · exact .inl ⟨.inr hpath, fileExists, if_neg hpath⟩

theorem write_refused (hname : ¬ BadName basename) {error : ByteText}
    (hopen : openExcl calls.openPart fs (partPath dir basename) = .error error) (fuel : ℕ) :
    write calls fuel fs dir basename bytes =
      some (some (errnoText (lit "cannot create " ++ partPath dir basename) error), fs) := by
  unfold write
  rw [if_neg hname]
  dsimp only
  rw [hopen]

theorem write_opened (hname : ¬ BadName basename) {fs₁ : Fs}
    (hopen : openExcl calls.openPart fs (partPath dir basename) = .ok fs₁) (fuel : ℕ)
    (bytes : ByteText) :
    write calls fuel fs dir basename bytes =
      (writeLoop calls.writes bytes.length fuel 0 0).map
        (finish calls fs₁ (partPath dir basename) (finalPath dir basename) bytes) := by
  unfold write
  rw [if_neg hname]
  dsimp only
  rw [hopen]

/-- **The outcome of an export.** -/
theorem write_spec {fuel : ℕ} {error : Outcome} {fs' : Fs}
    (h : write calls fuel fs dir basename bytes = some (error, fs')) :
    (error ≠ none → Failed calls fs (partPath dir basename) fs') ∧
      (error = none → fs (partPath dir basename) = none ∧ fs (finalPath dir basename) = none ∧
        fs' = unlink calls.unlink (Function.update (Function.update fs (partPath dir basename)
          (some (.file bytes))) (finalPath dir basename) (some (.file bytes)))
          (partPath dir basename)) := by
  by_cases hname : BadName basename
  · rw [write, if_pos hname] at h
    obtain ⟨rfl, rfl⟩ := Prod.mk.inj (Option.some_inj.mp h)
    exact ⟨fun _ => .inl rfl, nofun⟩
  · rcases openExcl_cases calls.openPart fs (partPath dir basename) with
      ⟨_, refused, hopen⟩ | ⟨⟨_, hnew⟩, hopen⟩
    · -- The part file could not be created: nothing has changed.
      rw [write_refused hname hopen] at h
      obtain ⟨rfl, rfl⟩ := Prod.mk.inj (Option.some_inj.mp h)
      exact ⟨fun _ => .inl rfl, nofun⟩
    · rw [write_opened hname hopen] at h
      obtain ⟨⟨written, outcome⟩, hloop, hresult⟩ := Option.map_eq_some_iff.mp h
      unfold finish at hresult
      dsimp only at hresult
      rw [Function.update_idem] at hresult
      cases outcome with
      | some failure =>
        obtain ⟨rfl, rfl⟩ := Prod.mk.inj hresult
        exact ⟨fun _ => failed_unlink hnew _, nofun⟩
      | none =>
        -- The loop has written everything, so the part file is complete when it is linked.
        have hall : written = bytes.length := writeLoop_spec hloop (Nat.zero_le _) rfl
        rw [hall, List.take_length] at hresult
        obtain ⟨hfailed, hdone⟩ := publish_spec calls bytes (part_ne_final dir basename) hnew
        dsimp only at hresult
        rw [hresult] at hfailed hdone
        exact ⟨hfailed, fun hnone => ⟨hnew, hdone hnone⟩⟩

end Write

/-- **An export is atomic.**  It returns unless its writing goes on for ever; when it succeeds the
final name was free and now holds the bytes; when it fails the final name and a part file of
before are as they were; and only an `unlink` that fails leaves a part file behind. -/
theorem export_atomic (calls : Calls) (fs : Fs) (dir basename : CString) (bytes : ByteText) :
    ((∃ fuel result, write calls fuel fs dir basename bytes = some result) ↔
      BadName basename ∨ calls.openPart ≠ none ∨ fs (partPath dir basename) ≠ none ∨
        Ends calls.writes bytes.length) ∧
    ∀ fuel error fs', write calls fuel fs dir basename bytes = some (error, fs') →
      (error = none → fs (finalPath dir basename) = none ∧
        fs' (finalPath dir basename) = some (.file bytes) ∧
        (calls.unlink = none → fs' (partPath dir basename) = none)) ∧
      (error ≠ none → fs' (finalPath dir basename) = fs (finalPath dir basename) ∧
        (calls.unlink = none → fs' = fs) ∧
        (fs (partPath dir basename) ≠ none → fs' = fs)) ∧
      ∀ path, path ≠ finalPath dir basename → path ≠ partPath dir basename →
        fs' path = fs path := by
  have hne := part_ne_final dir basename
  constructor
  · by_cases hname : BadName basename
    · refine iff_of_true ⟨0, _, if_pos hname⟩ (.inl hname)
    · rcases openExcl_cases calls.openPart fs (partPath dir basename) with
        ⟨hrefused, error, hopen⟩ | ⟨⟨hopenPart, hnew⟩, hopen⟩
      · exact iff_of_true ⟨0, _, write_refused hname hopen 0⟩ (.inr (or_assoc.mp (.inl hrefused)))
      · -- The part file is open, so the call returns exactly if the loop does.
        rw [← writeLoop_returns]
        constructor
        · rintro ⟨fuel, result, h⟩
          rw [write_opened hname hopen] at h
          obtain ⟨r, hloop, _⟩ := Option.map_eq_some_iff.mp h
          exact .inr (.inr (.inr ⟨fuel, r, hloop⟩))
        · rintro (h | h | h | ⟨fuel, r, hloop⟩)
          · exact absurd h hname
          · exact absurd hopenPart h
          · exact absurd hnew h
          · have hwrite := write_opened hname hopen fuel bytes
            rw [hloop, Option.map_some] at hwrite
            exact ⟨fuel, _, hwrite⟩
  · intro fuel error fs' h
    obtain ⟨hfailed, hdone⟩ := write_spec h
    cases error with
    | some text =>
      refine ⟨nofun, fun hsome => ?_, ?_⟩
      · -- Nothing was made, or the part file is left because its `unlink` failed.
        rcases hfailed hsome with rfl | ⟨hunlink, hnew, left, rfl⟩
        · exact ⟨rfl, fun _ => rfl, fun _ => rfl⟩
        · exact ⟨Function.update_of_ne hne.symm _ _, fun h => absurd h hunlink,
            fun h => absurd hnew h⟩
      · intro path _ hpart
        rcases hfailed nofun with rfl | ⟨_, _, left, rfl⟩
        · rfl
        · exact Function.update_of_ne hpart _ _
    | none =>
      -- The final name is linked, and only the part file may still stand beside it.
      obtain ⟨hnew, hfinal, rfl⟩ := hdone rfl
      unfold unlink
      cases calls.unlink with
      | some text =>
        dsimp only
        refine ⟨fun _ => ⟨hfinal, Function.update_self .., nofun⟩, fun h => absurd rfl h, ?_⟩
        intro path hpath hpart
        rw [Function.update_of_ne hpath, Function.update_of_ne hpart]
      | none =>
        dsimp only
        refine ⟨fun _ => ⟨hfinal, ?_, fun _ => Function.update_self ..⟩, fun h => absurd rfl h, ?_⟩
        · rw [Function.update_of_ne hne.symm, Function.update_self]
        · intro path hpath hpart
          rw [Function.update_of_ne hpart, Function.update_of_ne hpath, Function.update_of_ne hpart]

/-! ### The errors -/

/-- The texts of `errno` are short. -/
structure Calls.Short (calls : Calls) : Prop where
  openPart : ∀ error ∈ calls.openPart, error.length ≤ 200
  writes : ∀ turn error, calls.writes turn = .failed error → error.length ≤ 200
  fsync : ∀ error ∈ calls.fsync, error.length ≤ 200
  close : ∀ error ∈ calls.close, error.length ≤ 200
  link : ∀ error ∈ calls.link, error.length ≤ 200

/-- The error of the loop is that of one of its calls. -/
theorem writeLoop_error {writes : ℕ → WriteCall} {size fuel turn written done : ℕ}
    {error : ByteText} (h : writeLoop writes size fuel turn written = some (done, some error)) :
    ∃ turn, writes turn = .failed error := by
  induction fuel generalizing turn written with
  | zero => cases h
  | succ fuel ih =>
    rw [writeLoop] at h
    split at h
    · cases hcall : writes turn with
      | interrupted =>
        rw [hcall] at h
        exact ih h
      | failed error' =>
        rw [hcall] at h
        obtain ⟨-, hsame⟩ := Prod.mk.inj (Option.some_inj.mp h)
        rw [← Option.some_inj.mp hsame]
        exact ⟨turn, hcall⟩
      | wrote n =>
        rw [hcall] at h
        exact ih h
    · cases h

/-- A few words, a path and the text of `errno`. -/
theorem errnoText_length {words : String} {error : ByteText} (path : ByteText)
    (hwords : (lit words).length ≤ 16) (herror : error.length ≤ 200) :
    (errnoText (lit words ++ path) error).length ≤ path.length + 218 := by
  have hcolon : (lit ": ").length = 2 := rfl
  simp only [errnoText, List.length_append, hcolon]
  omega

theorem path_length (dir basename : CString) :
    (finalPath dir basename).length = dir.bytes.length + basename.bytes.length + 1 ∧
    (partPath dir basename).length = dir.bytes.length + basename.bytes.length + 6 := by
  have hslash : (lit "/").length = 1 := rfl
  have hpart : (lit ".part").length = 5 := rfl
  simp only [partPath, finalPath, List.length_append, hslash, hpart]
  omega

/-- **The error of an export** is the path and a few words. -/
theorem write_error_length {calls : Calls} (hshort : calls.Short) {fuel : ℕ} {fs fs' : Fs}
    {dir basename : CString} {bytes error : ByteText}
    (h : write calls fuel fs dir basename bytes = some (some error, fs')) :
    error.length ≤ dir.bytes.length + basename.bytes.length + 256 := by
  obtain ⟨hfinal, hpart⟩ := path_length dir basename
  have hexists : fileExists.length ≤ 200 := by decide
  -- what is said of a path
  have hlong : ∀ {words : String} {path error' : ByteText}, (lit words).length ≤ 16 →
      path.length ≤ dir.bytes.length + basename.bytes.length + 6 → error'.length ≤ 200 →
      some (errnoText (lit words ++ path) error') = some error →
      error.length ≤ dir.bytes.length + basename.bytes.length + 256 := by
    intro words path error' hwords hpath herror' heq
    rw [← Option.some_inj.mp heq]
    have hlength := errnoText_length path hwords herror'
    omega
  rw [write] at h
  split at h
  · have hname : (lit "invalid export file name").length = 24 := rfl
    rw [← Option.some_inj.mp (Prod.mk.inj (Option.some_inj.mp h)).1, hname]
    omega
  dsimp only at h
  split at h
  · rename_i error' hopen
    have herror' : error'.length ≤ 200 := by
      rw [openExcl.eq_def] at hopen
      split at hopen
      · rename_i text hcall
        rw [← Except.error.inj hopen]
        exact hshort.openPart text hcall
      split at hopen
      · cases hopen
      · rw [← Except.error.inj hopen]
        exact hexists
    exact hlong (by decide) hpart.le herror' (Prod.mk.inj (Option.some_inj.mp h)).1
  obtain ⟨⟨done, outcome⟩, hloop, hfinish⟩ := Option.map_eq_some_iff.mp h
  rw [finish] at hfinish
  dsimp only at hfinish
  cases outcome with
  | some error' =>
    obtain ⟨turn, hcall⟩ := writeLoop_error hloop
    exact hlong (by decide) hpart.le (hshort.writes turn error' hcall) (Prod.mk.inj hfinish).1
  | none =>
    dsimp only at hfinish
    rw [publish] at hfinish
    split at hfinish
    · rename_i error' hcall
      exact hlong (by decide) hpart.le (hshort.fsync error' hcall) (Prod.mk.inj hfinish).1
    split at hfinish
    · rename_i error' hcall
      exact hlong (by decide) hpart.le (hshort.close error' hcall) (Prod.mk.inj hfinish).1
    split at hfinish
    · rename_i error' hlink
      have herror' : error'.length ≤ 200 := by
        rw [link.eq_def] at hlink
        split at hlink
        · rename_i text hcall
          rw [← Except.error.inj hlink]
          exact hshort.link text hcall
        split at hlink
        · cases hlink
        · rw [← Except.error.inj hlink]
          exact hexists
      exact hlong (by decide) (by omega) herror' (Prod.mk.inj hfinish).1
    · cases (Prod.mk.inj hfinish).1

/-- A name for the examples that follow. -/
def tmp : CString := ⟨lit "/tmp", by decide⟩

def leftExport : CString := ⟨lit "a_left.mcal", by decide⟩

/-- The disk is full, and the part file cannot be unlinked either. -/
def fullDisk : Calls where
  openPart := none
  writes := fun _ => .failed (lit "No space left on device")
  fsync := none
  close := none
  link := none
  unlink := some (lit "Input/output error")

/-- **A part file that stays**: the export fails, and so does its `unlink`. -/
theorem part_file_stays :
    (write fullDisk 1 (fun _ => none) tmp leftExport [1, 2, 3]).map
        (fun result => (result.1.isSome, result.2 (partPath tmp leftExport))) =
      some (true, some (.file [])) := by
  decide

/-- Three bytes in two calls, with one that is interrupted. -/
def shortWrites : Calls where
  openPart := none
  writes := fun turn => if turn = 1 then .interrupted else .wrote 2
  fsync := none
  close := none
  link := none
  unlink := none

theorem short_writes_exported :
    ∃ fs', write shortWrites 5 (fun _ => none) tmp leftExport [1, 2, 3] = some (none, fs') ∧
      fs' (finalPath tmp leftExport) = some (.file [1, 2, 3]) ∧
      fs' (partPath tmp leftExport) = none := by
  have hreturns : (write shortWrites 5 (fun _ => none) tmp leftExport [1, 2, 3]).map Prod.fst =
      some none := by
    decide
  obtain ⟨⟨error, fs'⟩, h, rfl⟩ := Option.map_eq_some_iff.mp hreturns
  have hsuccess := (((export_atomic shortWrites (fun _ => none) tmp leftExport [1, 2, 3]).2
    5 none fs' h).1 rfl).2
  exact ⟨fs', h, hsuccess.1, hsuccess.2 rfl⟩

end ExportWriter
