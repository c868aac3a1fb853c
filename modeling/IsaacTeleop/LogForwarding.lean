/-
The receiver of forwarded log records.

A connection carries frames, each a length of four bytes and a body of JSON text.  The handler
re-emits the record of a body through the logger tree.  A malformed body is meant to be dropped
and the connection kept, but only three kinds of errors are caught: `int()` of an infinite
timestamp raises an `OverflowError`, and a body nested too deeply a `RecursionError`.

* `Connection.handle` — the handler on one connection, however the bytes arrive;
* `Harmless` — the bodies that raise nothing but what is caught;
* `frames_kept_iff` — a connection keeps its records exactly if all its bodies are harmless.
-/
import IsaacTeleop.PythonJson

open ByteText

namespace LogForwarding

open PyStr PythonJson

variable {φ : Type}

/-! ### `json.loads` with a recursion limit -/

inductive JsonError
  | value
  | recursion
  deriving DecidableEq, Repr

def orValueError {α : Type} : Option α → Except JsonError α
  | some a => .ok a
  | none => .error .value

mutual

/-- `scan_once` of the C scanner, when `depth` more containers may be opened. -/
def scanOnce [PyFloat φ] : (depth turns : ℕ) → PyStr → Except JsonError (PyJson φ × PyStr)
  | _, 0, _ => .error .value
  | _, _ + 1, [] => .error .value
  | 0, turns + 1, c :: rest =>
    if c = ch '{' ∨ c = ch '[' then .error .recursion
    else orValueError (PythonJson.scanOnce (turns + 1) (c :: rest))
  | depth + 1, turns + 1, c :: rest =>
    if c = ch '{' then
      match expect (ch '}') (skipSpace rest) with
      | some rest => .ok (.dict [], rest)
      | none => scanMembers depth turns [] (skipSpace rest)
    else if c = ch '[' then
      match expect (ch ']') (skipSpace rest) with
      | some rest => .ok (.list [], rest)
      | none => scanItems depth turns [] (skipSpace rest)
    -- What opens no container is scanned as ever.
    else orValueError (PythonJson.scanOnce (turns + 1) (c :: rest))

def scanItems [PyFloat φ] :
    (depth turns : ℕ) → List (PyJson φ) → PyStr → Except JsonError (PyJson φ × PyStr)
  | _, 0, _, _ => .error .value
  | depth, turns + 1, items, text => do
    let (item, rest) ← scanOnce depth turns text
    match expect (ch ']') (skipSpace rest) with
    | some rest => return (.list (items ++ [item]), rest)
    | none =>
      let rest ← orValueError (expect (ch ',') (skipSpace rest))
      scanItems depth turns (items ++ [item]) (skipSpace rest)

def scanMembers [PyFloat φ] :
    (depth turns : ℕ) → List (PyStr × PyJson φ) → PyStr → Except JsonError (PyJson φ × PyStr)
  | _, 0, _, _ => .error .value
  | depth, turns + 1, members, text => do
    let (key, rest) ← orValueError (scanString text)
    let rest ← orValueError (expect (ch ':') (skipSpace rest))
    let (value, rest) ← scanOnce depth turns (skipSpace rest)
    match expect (ch '}') (skipSpace rest) with
    | some rest => return (.dict (setItem members key value), rest)
    | none =>
      let rest ← orValueError (expect (ch ',') (skipSpace rest))
      scanMembers depth turns (setItem members key value) (skipSpace rest)

end

/-- `json.loads` where at most `depth` containers can be nested. -/
def loads [PyFloat φ] (depth : ℕ) (text : PyStr) : Except JsonError (PyJson φ) := do
  let (value, rest) ← scanOnce depth (2 * text.length + 1) (skipSpace text)
  if skipSpace rest = [] then return value else .error .value

/-! ### Records -/

/-- The exceptions that handling a body can raise. -/
inductive Raised
  | keyError
  | valueError
  | typeError
  | overflowError
  | recursionError
  | other
  deriving DecidableEq, Repr

/-- Those that `_handle_frame` catches. -/
def Raised.listed : Raised → Bool
  | .keyError | .valueError | .typeError => true
  | .overflowError | .recursionError | .other => false

def JsonError.raised : JsonError → Raised
  | .value => .valueError
  | .recursion => .recursionError

/-- A `levelname`: a known name, the number of a level given by its name, or `"Level %s"`. -/
inductive LevelName (φ : Type)
  | text (name : PyStr)
  | number (levelno : ℤ)
  | level (levelno : PyJson φ)

/-- What `makeLogRecord` sets. -/
structure LogRecord (φ : Type) where
  name : PyJson φ
  levelno : PyJson φ
  levelname : LevelName φ
  msg : PyJson φ
  created : PyJson φ
  msecs : PyJson φ
  process : PyJson φ
  excText : PyJson φ

/-- The interpreter the receiver runs in.  The logger tree is whatever has been configured:
`handle` is what the call of `Logger.handle` raises for a record. -/
structure Interpreter (φ : Type) where
  maxNesting : ℕ
  levelToName : List (ℤ × PyStr)
  nameToLevel : List (PyStr × ℤ)
  /-- Whether `int` accepts a text. -/
  parsesInt : PyStr → Bool
  /-- `(x - int(x)) * 1000`, of a finite `x`. -/
  fractionMs : φ → φ
  handle : LogRecord φ → Option Raised

variable [PyFloat φ] (interp : Interpreter φ)

/-- `payload[key]` -/
def getItem (payload : PyJson φ) (key : String) : Except Raised (PyJson φ) :=
  match payload with
  | .dict members =>
    match members.find? (fun m => m.1 = PyStr.ofString key) with
    | some m => .ok m.2
    | none => .error .keyError
  | _ => .error .typeError

/-- `payload.get("exc_text")`; by then the payload is known to be a dict. -/
def excText (payload : PyJson φ) : PyJson φ :=
  match getItem payload "exc_text" with
  | .ok text => text
  | .error _ => .null

def hashable : PyJson φ → Bool
  | .list _ | .dict _ => false
  | _ => true

/-- The entry of `_levelToName` whose number equals the key. -/
def levelText (isLevel : ℤ → Bool) : Option PyStr :=
  (interp.levelToName.find? fun level => isLevel level.1).map Prod.snd

def getLevelName (levelno : PyJson φ) : Except Raised (LevelName φ) :=
  let named (isLevel : ℤ → Bool) : LevelName φ :=
    match levelText interp isLevel with
    | some name => .text name
    | none => .level levelno
  match levelno with
  | .null => .ok (.level levelno)
  | .bool b => .ok (named fun n => n = if b then 1 else 0)
  | .int n => .ok (named fun m => m = n)
  | .float x => .ok (named fun n => (PyFloat.ofInt n).any fun y => PyFloat.eq x y)
  | .str s =>
    match interp.nameToLevel.find? (fun level => level.1 = s) with
    | some level => .ok (.number level.2)
    | none => .ok (.level levelno)
  | .list _ | .dict _ => .error .typeError

def infinite (x : φ) : Bool := !PyFloat.isFinite x && PyFloat.eq x x

/-- `(created - int(created)) * 1000` -/
def millis : PyJson φ → Except Raised (PyJson φ)
  | .bool _ | .int _ => .ok (.int 0)
  | .float x =>
    if PyFloat.isFinite x then .ok (.float (interp.fractionMs x))
    else if infinite x then .error .overflowError
    else .error .valueError
  | .str s => if interp.parsesInt s then .error .typeError else .error .valueError
  | .null | .list _ | .dict _ => .error .typeError

/-- The dict that `makeLogRecord` is given, evaluated from the top. -/
def makeRecord (payload : PyJson φ) : Except Raised (LogRecord φ) := do
  let name ← getItem payload "name"
  let levelno ← getItem payload "levelno"
  let levelname ← getLevelName interp levelno
  let msg ← getItem payload "msg"
  let created ← getItem payload "created"
  let msecs ← millis interp created
  let process ← getItem payload "process"
  return ⟨name, levelno, levelname, msg, created, msecs, process, excText payload⟩

def truthy : PyJson φ → Bool
  | .null => false
  | .bool b => b
  | .int n => n ≠ 0
  | .float x => !PyFloat.eq x PyFloat.zero
  | .str s => s ≠ []
  | .list items => !items.isEmpty
  | .dict members => !members.isEmpty

/-- `logging.getLogger`: anything false is the root logger. -/
def getLogger : PyJson φ → Except Raised Unit
  | .str _ => .ok ()
  | name => if truthy name then .error .typeError else .ok ()

/-- The `try` of `_handle_frame`: the record handed to the logger tree, and what was raised. -/
def reemit (body : ByteText) : Option (LogRecord φ) × Option Raised :=
  match loads interp.maxNesting (decodeReplace body) with
  | .error error => (none, some error.raised)
  | .ok payload =>
    match makeRecord interp payload with
    | .error error => (none, some error)
    | .ok record =>
      match getLogger record.name with
      | .error error => (none, some error)
      | .ok () => (some record, interp.handle record)

/-! ### The connection -/

def maxFrameSize : ℕ := 1 * 1024 * 1024

/-- `_FRAME_HEADER.pack` -/
def pack (length : ℕ) : ByteText :=
  [UInt8.ofNat (length / 2 ^ 24), UInt8.ofNat (length / 2 ^ 16), UInt8.ofNat (length / 2 ^ 8),
    UInt8.ofNat length]

/-- `_FRAME_HEADER.unpack` -/
def unpack (header : ByteText) : ℕ := header.foldl (fun n b => n * 256 + b.toNat) 0

def frame (body : ByteText) : ByteText := pack body.length ++ body

/-- Why a connection was ended. -/
inductive End
  | endOfStream
  | socketError
  | oversize
  | raised (error : Raised)
  deriving DecidableEq, Repr

/-- A connection: the bytes in the pieces they arrive in, and what comes after the last. -/
structure Connection where
  segments : List ByteText
  fails : Bool
  deriving DecidableEq, Repr

namespace Connection

/-- What a read finds after the last byte. -/
def ending (connection : Connection) : End :=
  if connection.fails then .socketError else .endOfStream

/-- One `read`: some of the bytes that are there, or nothing after the last. -/
def read (n : ℕ) : List ByteText → Option (ByteText × List ByteText)
  | [] => none
  | [] :: segments => read n segments
  | (b :: bytes) :: segments => some ((b :: bytes).take n, (b :: bytes).drop n :: segments)

/-- The loop of `_recv_exact`. -/
def recvLoop : (turns missing : ℕ) → ByteText → List ByteText →
    Option (ByteText × List ByteText)
  | _, 0, buf, segments => some (buf, segments)
  | 0, _ + 1, _, _ => none
  | turns + 1, missing + 1, buf, segments =>
    match read (missing + 1) segments with
    | none => none
    | some (chunk, segments) =>
      recvLoop turns (missing + 1 - chunk.length) (buf ++ chunk) segments

/-- `_recv_exact`; every read brings at least one byte. -/
def recvExact (n : ℕ) (connection : Connection) : Except End (ByteText × Connection) :=
  match recvLoop n n [] connection.segments with
  | none => .error connection.ending
  | some (bytes, segments) => .ok (bytes, { connection with segments := segments })

/-- `_handle_frame`: the record that was handed on, and the connection if it is kept. -/
def handleFrame (connection : Connection) : Option (LogRecord φ) × Except End Connection :=
  match connection.recvExact 4 with
  | .error ended => (none, .error ended)
  | .ok (header, connection) =>
    if maxFrameSize < unpack header then (none, .error .oversize)
    else
      match connection.recvExact (unpack header) with
      | .error ended => (none, .error ended)
      | .ok (body, connection) =>
        match reemit interp body with
        | (record, none) => (record, .ok connection)
        | (record, some error) =>
          if error.listed then (record, .ok connection) else (record, .error (.raised error))

/-- What a handler did: the records it handed on, with the number of their frame. -/
@[ext]
structure Handled (φ : Type) where
  log : List (ℕ × LogRecord φ)
  ended : End

/-- The loop of `handle`, from a frame on. -/
def handleLoop : (turns number : ℕ) → Connection → Option (Handled φ)
  | 0, _, _ => none
  | turns + 1, number, connection =>
    -- The peek, which takes nothing off the socket.
    match read 1 connection.segments with
    | none => some ⟨[], connection.ending⟩
    | some _ =>
      match handleFrame interp connection with
      | (record, .error ended) => some ⟨record.toList.map (number, ·), ended⟩
      | (record, .ok connection) =>
        (handleLoop turns (number + 1) connection).map fun rest =>
          { rest with log := record.toList.map (number, ·) ++ rest.log }

/-- `handle`; every frame takes at least the four bytes of its header. -/
def handle (connection : Connection) : Option (Handled φ) :=
  handleLoop interp (connection.segments.flatten.length + 1) 0 connection

end Connection

/-! ### What is asked of a connection -/

/-- A timestamp a sender writes, with its milliseconds. -/
inductive Timestamp : PyJson φ → PyJson φ → Prop
  | int (n : ℤ) : Timestamp (.int n) (.int 0)
  | float (x : φ) (hx : PyFloat.isFinite x = true) :
    Timestamp (.float x) (.float (interp.fractionMs x))

/-- A body is a valid record: an object with the members a sender writes. -/
def ValidRecord (body : ByteText) (record : LogRecord φ) : Prop :=
  ∃ (payload : PyJson φ) (name msg : PyStr) (levelno process : ℤ) (levelname : LevelName φ)
    (created msecs : PyJson φ),
    loads interp.maxNesting (decodeReplace body) = .ok payload ∧
    getItem payload "name" = .ok (.str name) ∧
    getItem payload "levelno" = .ok (.int levelno) ∧
    getLevelName interp (.int levelno) = .ok levelname ∧
    getItem payload "msg" = .ok (.str msg) ∧
    getItem payload "created" = .ok created ∧ Timestamp interp created msecs ∧
    getItem payload "process" = .ok (.int process) ∧
    record = ⟨.str name, .int levelno, levelname, .str msg, created, msecs, .int process,
      excText payload⟩

/-- Every valid record is re-emitted, once and in order, and the connection ends with the
stream. -/
def KeepsRecords (frames : List ByteText) (ending : End)
    (handled : Option (Connection.Handled φ)) : Prop :=
  ∃ log, handled = some ⟨log, ending⟩ ∧ (log.map Prod.fst).Pairwise (· < ·) ∧
    ∀ i body record, frames[i]? = some body → ValidRecord interp body record → (i, record) ∈ log

/-- A payload whose timestamp is infinite, and whose members before the timestamp raise nothing
else. -/
def InfiniteCreated (payload : PyJson φ) : Prop :=
  ∃ name levelno msg x, getItem payload "name" = .ok name ∧
    getItem payload "levelno" = .ok levelno ∧ hashable levelno = true ∧
    getItem payload "msg" = .ok msg ∧ getItem payload "created" = .ok (.float x) ∧
    infinite x = true

/-- A body that raises nothing but what is caught. -/
structure Harmless (body : ByteText) : Prop where
  nesting : loads (φ := φ) interp.maxNesting (decodeReplace body) ≠ .error .recursion
  finite : ∀ payload : PyJson φ, loads interp.maxNesting (decodeReplace body) = .ok payload →
    ¬ InfiniteCreated payload
  handlers : ∀ payload record error, loads interp.maxNesting (decodeReplace body) = .ok payload →
    makeRecord interp payload = .ok record → getLogger record.name = .ok () →
    interp.handle record = some error → error.listed = true

/-! ### Bodies -/

theorem bind_error_iff {α β : Type} {x : Except Raised α} {f : α → Except Raised β}
    {e : Raised} : x >>= f = .error e ↔ x = .error e ∨ ∃ a, x = .ok a ∧ f a = .error e := by
  cases x with
  | error e' => simp [bind, Except.bind]
  | ok a => simp [bind, Except.bind]

omit [PyFloat φ] in
theorem getItem_error {payload : PyJson φ} {key : String} {error : Raised}
    (h : getItem payload key = .error error) : error.listed = true := by
  unfold getItem at h
  split at h
  · split at h
    · cases h
    · cases h
      rfl
  · cases h
    rfl

theorem getLevelName_error {levelno : PyJson φ} {error : Raised}
    (h : getLevelName interp levelno = .error error) : error.listed = true := by
  unfold getLevelName at h
  cases levelno with
  | null | bool b | int n | float x => cases h
  | str s =>
    simp only at h
    split at h <;> cases h
  | list items =>
    cases h
    rfl
  | dict members =>
    cases h
    rfl

theorem hashable_of_getLevelName {levelno : PyJson φ} {levelname : LevelName φ}
    (h : getLevelName interp levelno = .ok levelname) : hashable levelno = true := by
  cases levelno with
  | list items => cases h
  | dict members => cases h
  | null | bool b | int n | float x | str s => rfl

theorem getLevelName_of_hashable {levelno : PyJson φ} (h : hashable levelno = true) :
    ∃ levelname, getLevelName interp levelno = .ok levelname := by
  cases levelno with
  | list items => cases h
  | dict members => cases h
  | null | bool b | int n | float x => exact ⟨_, rfl⟩
  | str s =>
    unfold getLevelName
    simp only
    split
    · exact ⟨_, rfl⟩
    · exact ⟨_, rfl⟩

/-- Of the timestamps, only the infinite ones raise what is not caught. -/
theorem millis_error {created : PyJson φ} {error : Raised}
    (h : millis interp created = .error error) :
    error.listed = true ∨ error = .overflowError ∧ ∃ x, created = .float x ∧ infinite x = true := by
  cases created with
  | bool b => cases h
  | int n => cases h
  | float x =>
    simp only [millis] at h
    split at h
    · cases h
    · split at h
      · rename_i hinfinite
        cases h
        exact .inr ⟨rfl, x, rfl, hinfinite⟩
      · cases h
        exact .inl rfl
  | str s =>
    simp only [millis] at h
    split at h
    · cases h
      exact .inl rfl
    · cases h
      exact .inl rfl
  | null | list items | dict members =>
    cases h
    exact .inl rfl

theorem millis_infinite {x : φ} (h : infinite x = true) :
    millis interp (.float x) = .error .overflowError := by
  have hfinite : PyFloat.isFinite x = false := by
    simp only [infinite, Bool.and_eq_true, Bool.not_eq_true'] at h
    exact h.1
  rw [millis, hfinite, if_neg (by simp), if_pos h]

/-- **What building a record raises** is caught, but for an infinite timestamp. -/
theorem makeRecord_error {payload : PyJson φ} {error : Raised}
    (h : makeRecord interp payload = .error error) :
    error.listed = true ∨ InfiniteCreated payload := by
  rw [makeRecord, bind_error_iff] at h
  rcases h with h | ⟨name, hname, h⟩
  · exact .inl (getItem_error h)
  rw [bind_error_iff] at h
  rcases h with h | ⟨levelno, hlevelno, h⟩
  · exact .inl (getItem_error h)
  rw [bind_error_iff] at h
  rcases h with h | ⟨levelname, hlevelname, h⟩
  · exact .inl (getLevelName_error interp h)
  rw [bind_error_iff] at h
  rcases h with h | ⟨msg, hmsg, h⟩
  · exact .inl (getItem_error h)
  rw [bind_error_iff] at h
  rcases h with h | ⟨created, hcreated, h⟩
  · exact .inl (getItem_error h)
  rw [bind_error_iff] at h
  rcases h with h | ⟨msecs, _, h⟩
  · -- Every lookup raises a listed error; the conversion of the time does so unless it is infinite.
    rcases millis_error interp h with hlisted | ⟨_, x, rfl, hinfinite⟩
    · exact .inl hlisted
    · exact .inr ⟨name, levelno, msg, x, hname, hlevelno,
        hashable_of_getLevelName interp hlevelname, hmsg, hcreated, hinfinite⟩
  rw [bind_error_iff] at h
  rcases h with h | ⟨process, _, h⟩
  · exact .inl (getItem_error h)
  · cases h

theorem makeRecord_infinite {payload : PyJson φ} (h : InfiniteCreated payload) :
    makeRecord interp payload = .error .overflowError := by
  obtain ⟨name, levelno, msg, x, hname, hlevelno, hhashable, hmsg, hcreated, hinfinite⟩ := h
  obtain ⟨levelname, hlevelname⟩ := getLevelName_of_hashable interp hhashable
  rw [makeRecord, hname, hlevelno, hmsg, hcreated]
  simp [bind, Except.bind, hlevelname, millis_infinite interp hinfinite]

theorem getLogger_error {name : PyJson φ} {error : Raised} (h : getLogger name = .error error) :
    error.listed = true := by
  unfold getLogger at h
  split at h
  · cases h
  · split at h
    · cases h
      rfl
    · cases h

/-- **A body is harmless exactly if nothing escapes.** -/
theorem harmless_iff (body : ByteText) :
    Harmless interp body ↔ ∀ error, (reemit interp body).2 = some error → error.listed = true := by
  constructor
  · intro h error herror
    unfold reemit at herror
    split at herror
    · rename_i jsonError hloads
      cases jsonError with
      | recursion => exact absurd hloads h.nesting
      | value =>
        cases herror
        rfl
    · rename_i payload hloads
      split at herror
      · -- Of the errors of `makeRecord` only that of an infinite time is not listed.
        rename_i error' hrecord
        cases herror
        exact (makeRecord_error interp hrecord).resolve_right (h.finite payload hloads)
      · rename_i record hrecord
        split at herror
        · rename_i error' hlogger
          cases herror
          exact getLogger_error hlogger
        · rename_i hlogger
          exact h.handlers payload record error hloads hrecord hlogger herror
  · intro h
    -- Each condition is needed: where it fails an error escapes the list.
    refine ⟨fun hloads => ?_, fun payload hloads hinfinite => ?_, ?_⟩
    · have hescape := h .recursionError (by simp [reemit, hloads, JsonError.raised])
      cases hescape
    · have hrecord := makeRecord_infinite interp hinfinite
      have hescape := h .overflowError (by simp [reemit, hloads, hrecord])
      cases hescape
    · intro payload record error hloads hrecord hlogger hhandle
      exact h error (by simp [reemit, hloads, hrecord, hlogger, hhandle])

/-- A valid record is handed to the logger tree, whatever comes of it. -/
theorem reemit_of_valid {body : ByteText} {record : LogRecord φ}
    (h : ValidRecord interp body record) : (reemit interp body).1 = some record := by
  obtain ⟨payload, name, msg, levelno, process, levelname, created, msecs, hloads, hname, hlevelno,
    hlevelname, hmsg, hcreated, htimestamp, hprocess, rfl⟩ := h
  have hmsecs : millis interp created = .ok msecs := by
    cases htimestamp with
    | int n => rfl
    | float x hx => simp [millis, hx]
  have hrecord : makeRecord interp payload = .ok ⟨.str name, .int levelno, levelname, .str msg,
      created, msecs, .int process, excText payload⟩ := by
    simp only [makeRecord, bind, Except.bind, hname, hlevelno, hlevelname, hmsg, hcreated, hmsecs,
      hprocess]
    rfl
  simp [reemit, hloads, hrecord, getLogger]

/-! ### Frames off a connection -/

theorem unpack_pack {n : ℕ} (h : n < 2 ^ 32) : unpack (pack n) = n := by
  simp only [unpack, pack, List.foldl_cons, List.foldl_nil, UInt8.toNat_ofNat']
  omega

namespace Connection

theorem read_nil {n : ℕ} : ∀ {segments : List ByteText}, segments.flatten = [] →
    read n segments = none
  | [], _ => rfl
  | [] :: segments, h => by
    rw [read]
    exact read_nil (by simpa using h)
  | (b :: bytes) :: segments, h => by simp at h

/-- A read brings the next bytes, at least one of them. -/
theorem read_cons {n : ℕ} (hn : 0 < n) : ∀ {segments : List ByteText}, segments.flatten ≠ [] →
    ∃ chunk segments', read n segments = some (chunk, segments') ∧ 0 < chunk.length ∧
      chunk.length ≤ n ∧ chunk ++ segments'.flatten = segments.flatten
  | [], h => absurd rfl h
  | [] :: segments, h => by
    obtain ⟨chunk, segments', hread, hchunk⟩ := @read_cons n hn segments (by simpa using h)
    exact ⟨chunk, segments', by rw [read, hread], by simpa using hchunk⟩
  | (b :: bytes) :: segments, _ => by
    refine ⟨_, _, rfl, ?_, ?_, ?_⟩
    · simp [hn]
    · exact List.length_take_le _ _
    · rw [List.flatten_cons, ← List.append_assoc, List.take_append_drop, List.flatten_cons]

/-- **The reads of `_recv_exact` add up**, in whatever pieces the bytes arrive. -/
theorem recvLoop_spec {turns missing : ℕ} {buf : ByteText} {segments : List ByteText}
    (hturns : missing ≤ turns) (hmissing : missing ≤ segments.flatten.length) :
    ∃ segments', recvLoop turns missing buf segments =
        some (buf ++ segments.flatten.take missing, segments') ∧
      segments'.flatten = segments.flatten.drop missing := by
  induction turns generalizing missing buf segments with
  | zero =>
    obtain rfl : missing = 0 := by omega
    exact ⟨segments, by simp [recvLoop], by simp⟩
  | succ turns ih =>
    cases missing with
    | zero => exact ⟨segments, by simp [recvLoop], by simp⟩
    | succ missing =>
      have hne : segments.flatten ≠ [] := by
        intro hnil
        simp [hnil] at hmissing
      -- A read gives at least one byte, so the missing ones get fewer.
      obtain ⟨chunk, rest, hread, hpos, hle, hflat⟩ := read_cons (Nat.succ_pos missing) hne
      rw [← hflat] at hmissing ⊢
      rw [List.length_append] at hmissing
      obtain ⟨segments', hloop, hrest⟩ := @ih (missing + 1 - chunk.length) (buf ++ chunk) rest
        (by omega) (by omega)
      refine ⟨segments', ?_, ?_⟩
      · rw [recvLoop, hread]
        simp only
        rw [hloop, List.take_append, List.take_of_length_le hle, List.append_assoc]
      · rw [hrest, List.drop_append, List.drop_of_length_le hle, List.nil_append]

theorem recvExact_append {connection : Connection} {bytes rest : ByteText}
    (h : connection.segments.flatten = bytes ++ rest) :
    ∃ segments, connection.recvExact bytes.length =
        .ok (bytes, { connection with segments := segments }) ∧ segments.flatten = rest := by
  obtain ⟨segments, hloop, hrest⟩ := @recvLoop_spec bytes.length bytes.length []
    connection.segments le_rfl (by simp [h])
  refine ⟨segments, ?_, by rw [hrest, h, List.drop_left]⟩
  rw [h, List.take_left, List.nil_append] at hloop
  rw [recvExact, hloop]

/-- What a body raises that is not caught. -/
def escaped (body : ByteText) : Option Raised :=
  (reemit interp body).2.filter fun error => !error.listed

theorem escaped_eq_none_iff (body : ByteText) :
    escaped interp body = none ↔ Harmless interp body := by
  rw [harmless_iff, escaped, Option.filter_eq_none_iff]
  simp

/-- A whole frame at the front of a connection. -/
theorem handleFrame_frame {connection : Connection} {body rest : ByteText}
    (hsize : body.length ≤ maxFrameSize)
    (h : connection.segments.flatten = frame body ++ rest) :
    ∃ segments, segments.flatten = rest ∧
      handleFrame interp connection = ((reemit interp body).1,
        match escaped interp body with
        | none => .ok { connection with segments := segments }
        | some error => .error (.raised error)) := by
  rw [frame, List.append_assoc] at h
  obtain ⟨middle, hheader, hmiddle⟩ := recvExact_append h
  obtain ⟨segments, hbody, hrest⟩ :=
    @recvExact_append { connection with segments := middle } body rest hmiddle
  -- The header gives the length back, which lies within the limit.
  have hlength : unpack (pack body.length) = body.length :=
    unpack_pack (hsize.trans_lt (by decide))
  refine ⟨segments, hrest, ?_⟩
  rw [handleFrame, show 4 = (pack body.length).length from rfl, hheader]
  simp only [hlength]
  rw [if_neg (by omega), hbody]
  simp only [escaped]
  rcases reemit interp body with ⟨record, _ | error⟩
  · rfl
  · cases hlisted : error.listed with
    | true => simp [Option.filter, hlisted]
    | false => simp [Option.filter, hlisted]

/-- What the handler does with frames, from their bodies alone. -/
def handleBodies (ending : End) : ℕ → List ByteText → Handled φ
  | _, [] => ⟨[], ending⟩
  | number, body :: bodies =>
    match escaped interp body with
    | some error => ⟨(reemit interp body).1.toList.map (number, ·), .raised error⟩
    | none =>
      let rest := handleBodies ending (number + 1) bodies
      { rest with log := (reemit interp body).1.toList.map (number, ·) ++ rest.log }

theorem handleLoop_frames {frames : List ByteText}
    (hsize : ∀ body ∈ frames, body.length ≤ maxFrameSize) {turns number : ℕ}
    (hturns : frames.length < turns) {connection : Connection}
    (h : connection.segments.flatten = frames.flatMap frame) :
    handleLoop interp turns number connection =
      some (handleBodies interp connection.ending number frames) := by
  induction frames generalizing turns number connection with
  | nil =>
    obtain ⟨turns, rfl⟩ : ∃ k, turns = k + 1 := ⟨turns - 1, by simp at hturns; omega⟩
    rw [handleLoop, read_nil (by simpa using h)]
    rfl
  | cons body frames ih =>
    obtain ⟨turns, rfl⟩ : ∃ k, turns = k + 1 := ⟨turns - 1, by simp at hturns; omega⟩
    rw [List.flatMap_cons] at h
    -- A frame has at least its header, so the peek finds something.
    have hne : connection.segments.flatten ≠ [] := by
      rw [h]
      simp [frame, pack]
    obtain ⟨chunk, _, hpeek, _⟩ := read_cons Nat.one_pos hne
    obtain ⟨segments, hrest, hframe⟩ :=
      handleFrame_frame interp (hsize body List.mem_cons_self) h
    rw [handleLoop, hpeek, hframe, handleBodies]
    cases escaped interp body with
    | some error => rfl
    | none =>
      simp only
      rw [ih (fun b hb => hsize b (List.mem_cons_of_mem body hb))
        (by simpa using hturns) hrest]
      rfl

theorem handle_frames {frames : List ByteText}
    (hsize : ∀ body ∈ frames, body.length ≤ maxFrameSize) {connection : Connection}
    (h : connection.segments.flatten = frames.flatMap frame) :
    connection.handle interp = some (handleBodies interp connection.ending 0 frames) := by
  refine handleLoop_frames interp hsize ?_ h
  rw [h, Nat.lt_succ_iff]
  clear h hsize
  induction frames with
  | nil => exact Nat.zero_le _
  | cons body frames ih =>
    simp only [List.length_cons, List.flatMap_cons, List.length_append, frame, pack]
    omega

/-! ### What is kept -/

/-- A raised error ends the connection at once. -/
theorem handleBodies_ended {ending : End} (hending : ∀ error, ending ≠ .raised error)
    {number : ℕ} {frames : List ByteText} :
    (handleBodies interp ending number frames).ended = ending →
      ∀ body ∈ frames, escaped interp body = none := by
  induction frames generalizing number with
  | nil => simp
  | cons body frames ih =>
    intro h
    rw [handleBodies] at h
    split at h
    · exact absurd h.symm (hending _)
    · rename_i hnone
      intro other hother
      rcases List.mem_cons.mp hother with rfl | hmem
      · exact hnone
      · exact ih h other hmem

/-- With nothing raised, the stream is read to its end. -/
theorem handleBodies_of_harmless {ending : End} {number : ℕ} {frames : List ByteText}
    (h : ∀ body ∈ frames, escaped interp body = none) :
    (handleBodies interp ending number frames).ended = ending ∧
      (∀ n ∈ (handleBodies interp ending number frames).log.map Prod.fst, number ≤ n) ∧
      ((handleBodies interp ending number frames).log.map Prod.fst).Pairwise (· < ·) ∧
      ∀ i body record, frames[i]? = some body → (reemit interp body).1 = some record →
        (number + i, record) ∈ (handleBodies interp ending number frames).log := by
  induction frames generalizing number with
  | nil => simp [handleBodies]
  | cons body frames ih =>
    obtain ⟨hended, hle, hpairwise, hlog⟩ :=
      @ih (number + 1) fun b hb => h b (List.mem_cons_of_mem body hb)
    rw [handleBodies, h body List.mem_cons_self]
    simp only [List.map_append, List.map_map]
    -- The numbers of the first frame come before those of the others.
    have hfirst : ∀ n ∈ ((reemit interp body).1.toList.map
        (Prod.fst ∘ fun record => (number, record))), n = number := by
      simp
    refine ⟨hended, fun n hn => ?_, List.pairwise_append.mpr ⟨?_, hpairwise, ?_⟩, ?_⟩
    · rcases List.mem_append.mp hn with hn | hn
      · exact (hfirst n hn).ge
      · exact (Nat.le_succ number).trans (hle n hn)
    · cases (reemit interp body).1 <;> simp
    · intro n hn m hm
      rw [hfirst n hn]
      exact hle m hm
    · intro i other record hi hrecord
      cases i with
      | zero =>
        obtain rfl : body = other := by simpa using hi
        simp [hrecord]
      | succ i =>
        have hmem := hlog i other record (by simpa using hi) hrecord
        rw [show number + 1 + i = number + (i + 1) by omega] at hmem
        exact List.mem_append_right _ hmem

end Connection

/-- **A bad frame and the records after it.**  On a connection that carries whole frames of at most
1 MiB, however they arrive, every valid record is re-emitted once and in order and the connection
lasts to the end of the stream, exactly if no body nests too deeply, none has an infinite
timestamp behind members that raise nothing, and the logger tree lets no other error through. -/
theorem frames_kept_iff (frames : List ByteText) (connection : Connection)
    (hsize : ∀ body ∈ frames, body.length ≤ maxFrameSize)
    (hframes : connection.segments.flatten = frames.flatMap frame) :
    KeepsRecords interp frames connection.ending (connection.handle interp) ↔
      ∀ body ∈ frames, Harmless interp body := by
  have hending : ∀ error, connection.ending ≠ .raised error := by
    intro error
    unfold Connection.ending
    split <;> simp
  rw [KeepsRecords, Connection.handle_frames interp hsize hframes]
  constructor
  · rintro ⟨log, hhandled, _⟩ body hbody
    have hended := congrArg Connection.Handled.ended (Option.some.inj hhandled)
    exact (Connection.escaped_eq_none_iff interp body).mp
      (Connection.handleBodies_ended interp hending hended body hbody)
  · intro hharmless
    obtain ⟨hended, _, hpairwise, hlog⟩ :=
      @Connection.handleBodies_of_harmless _ _ interp connection.ending 0 frames fun body hbody =>
        (Connection.escaped_eq_none_iff interp body).mpr (hharmless body hbody)
    refine ⟨_, ?_, hpairwise, fun i body record hi hvalid => ?_⟩
    · exact congrArg some (Connection.Handled.ext rfl hended)
    · have hmem := hlog i body record hi (reemit_of_valid interp hvalid)
      rwa [Nat.zero_add] at hmem

/-! ### An infinite timestamp -/

/-- An interpreter with two level names, whose handlers raise nothing. -/
def quietInterpreter : Interpreter ExactFloat where
  maxNesting := 900
  levelToName := [(20, PyStr.ofString "INFO"), (30, PyStr.ofString "WARNING")]
  nameToLevel := [(PyStr.ofString "INFO", 20), (PyStr.ofString "WARNING", 30)]
  parsesInt _ := false
  fractionMs
    | .finite x => .finite ((x - x.num.tdiv x.den) * 1000)
    | x => x
  handle _ := none

def infiniteBody : ByteText :=
  lit "\x7b\"name\":\"a\",\"levelno\":20,\"msg\":\"m\",\"created\":Infinity,\"process\":1\x7d"

def goodBody : ByteText :=
  lit "\x7b\"name\":\"a\",\"levelno\":20,\"msg\":\"m\",\"created\":1700000000,\"process\":1\x7d"

def notJson : ByteText := lit "\x7bnot json"

/-- The connection that carries these bodies, all arrived. -/
def carrying (frames : List ByteText) : Connection := ⟨[frames.flatMap frame], false⟩

/-- A text that is no JSON costs nothing. -/
theorem malformed_then_good_kept :
    KeepsRecords quietInterpreter [notJson, goodBody] .endOfStream
      ((carrying [notJson, goodBody]).handle quietInterpreter) := by
  have hframes : (carrying [notJson, goodBody]).segments.flatten =
      [notJson, goodBody].flatMap frame := by
    simp [carrying]
  refine (frames_kept_iff quietInterpreter _ _ (by decide) hframes).mpr ?_
  intro body hbody
  rw [harmless_iff]
  intro error herror
  have hall : ∀ body ∈ [notJson, goodBody],
      (reemit quietInterpreter body).2.all Raised.listed = true := by
    decide
  have hlisted := hall body hbody
  rw [herror] at hlisted
  exact hlisted

/-- An infinite timestamp costs the good record behind it. -/
theorem infinite_timestamp_loses_record :
    (∀ body ∈ [infiniteBody, goodBody], body.length ≤ maxFrameSize) ∧
      ((carrying [goodBody]).handle quietInterpreter).map
        (fun handled => (handled.log.map Prod.fst, handled.ended)) = some ([0], .endOfStream) ∧
      ((carrying [infiniteBody, goodBody]).handle quietInterpreter).map
        (fun handled => (handled.log.map Prod.fst, handled.ended)) =
          some ([], .raised .overflowError) ∧
      ¬ KeepsRecords quietInterpreter [infiniteBody, goodBody] .endOfStream
        ((carrying [infiniteBody, goodBody]).handle quietInterpreter) := by
  have hended : ((carrying [infiniteBody, goodBody]).handle quietInterpreter).map
      (fun handled => (handled.log.map Prod.fst, handled.ended)) =
        some ([], .raised .overflowError) := by
    decide +kernel
  refine ⟨by decide, by decide, hended, ?_⟩
  rintro ⟨log, hhandled, _⟩
  rw [hhandled] at hended
  simp at hended

end LogForwarding
