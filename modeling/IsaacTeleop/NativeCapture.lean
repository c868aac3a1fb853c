/-
Scoped capture of what is written straight to descriptors 1 and 2.

The first scope points both descriptors at the capture file and moves Python's streams onto copies
of the originals; the last one puts everything back.  Beginning and ending a scope hold the lock,
so that threads and nesting come down to a depth.  Every call of the system may fail, and a
begin that fails half-way undoes what it did.

`sys.stdout` is moved if it writes through descriptor 1, `sys.stderr` and the stream of the console
handler if they write through descriptor 2.  A `dup2` that fails while something is put back is
not tried again: the descriptor is lost.

* `begin`, `endScope`, `step` — the scopes, with every pattern of failures;
* `Process.Inv` — what holds between two steps;
* `capture_restores` — a descriptor that is not lost is untouched or captured, with its streams, and
  after the last scope everything is what it was before the first.
-/
import Mathlib

namespace NativeCapture

/-! ### Descriptors -/

/-- `_CAPTURED_FDS`, with the streams of the interpreter that go with them. -/
inductive Std
  | out
  | err
  deriving DecidableEq, Repr

def Std.number : Std → ℕ
  | .out => 1
  | .err => 2

/-- An open descriptor: the open file it refers to, and whether children inherit it. -/
structure Descriptor where
  file : ℕ
  inheritable : Bool
  deriving DecidableEq, Repr

abbrev Table := ℕ → Option Descriptor

/-- The descriptors the module keeps: `_sink_fd`, `_saved_raw` and `_saved_stream_fd`. -/
inductive Slot
  | sink
  | raw (fd : Std)
  | stream (fd : Std)
  deriving DecidableEq, Repr

/-- A stream of the host, or an entry of `_saved`. -/
inductive Stream
  | host (object : ℕ)
  | saved (fd : Std)
  deriving DecidableEq, Repr

def closeAll (low : List ℕ) (table : Table) : Table := fun n => if n ∈ low then none else table n

/-- Open or duplicate a descriptor and relocate it clear of 0, 1 and 2 (`_move_above_std`).  An
answer is the free number that a call gives, or `none` for an `OSError`. -/
def placeAbove (descriptor : Descriptor) : Table → List ℕ → List (Option ℕ) → Table × Option ℕ
  | table, low, some n :: answers =>
    if table n = none then
      if 2 < n then (closeAll low (Function.update table n (some descriptor)), some n)
      else placeAbove descriptor (Function.update table n (some descriptor)) (low ++ [n]) answers
    else (closeAll low table, none)
  | table, low, _ => (closeAll low table, none)

/-- `os.dup2`, or nothing for an `OSError`. -/
def dup2 (source target : ℕ) (inheritable succeeds : Bool) (table : Table) : Option Table :=
  match table source with
  | none => none
  | some descriptor =>
    if succeeds then some (Function.update table target (some ⟨descriptor.file, inheritable⟩))
    else none

/-! ### Scopes -/

structure Config where
  /-- `fileno()` of the host's streams, `none` when it raises. -/
  fileno : ℕ → Option ℕ
  /-- `sys.__stdout__` and `sys.__stderr__` -/
  original : Std → Option Stream
  /-- Whether the scopes are given a console handler. -/
  hasHandler : Bool
  sinkFile : ℕ

/-- What a scope has to put back. -/
structure Snapshot where
  fds : Std → Option Descriptor
  streams : Std → Option Stream
  handlerStream : Option Stream

structure Process where
  table : Table
  slot : Slot → Option ℕ
  /-- `sys.stdout` and `sys.stderr` -/
  streams : Std → Option Stream
  handlerStream : Option Stream
  active : List Std
  activeInheritable : Std → Option Bool
  preScopeStreams : Std → Option Stream
  preScopeHandlerStream : Option Stream
  depth : ℕ
  /-- How things were before the first scope. -/
  before : Snapshot
  /-- The descriptors that a failing `dup2` has not put back. -/
  lost : Std → Bool

def Process.snapshot (s : Process) : Snapshot :=
  ⟨fun fd => s.table fd.number, s.streams, s.handlerStream⟩

/-- How the calls turn out that reserve the slots of a descriptor. -/
structure SlotAnswers where
  raw : List (Option ℕ)
  stream : List (Option ℕ)
  fdopen : Bool

/-- How the calls of a `_begin` turn out. -/
structure Answers where
  /-- `none` if there is no capture file; else the numbers for its descriptor. -/
  sink : Option (List (Option ℕ))
  slots : Std → SlotAnswers
  /-- A flush is interrupted. -/
  interrupted : Bool
  refreshRaw : Std → Bool
  refreshStream : Std → Bool
  /-- Moving the streams raises, after that many moves. -/
  raisesAfter : Option ℕ
  rebind : Std → Bool
  undo : Std → Bool

variable (config : Config)

namespace Process

/-- `_follows` -/
def follows (s : Process) (stream : Option Stream) (fd : Std) : Bool :=
  match stream with
  | none => false
  | some (.host object) => config.fileno object = some fd.number
  | some (.saved saved) => s.slot (.stream saved) = some fd.number

/-- Whether `_stdio_stream` finds a stream. -/
def hasStdioStream (s : Process) (fd : Std) : Bool :=
  s.follows config (s.streams fd) fd || s.follows config (config.original fd) fd

def ensureSink (answers : Option (List (Option ℕ))) (s : Process) : Process :=
  match s.slot .sink, answers with
  | none, some numbers =>
    match placeAbove ⟨config.sinkFile, false⟩ s.table [] numbers with
    | (table, number) => { s with table := table, slot := Function.update s.slot .sink number }
  | _, _ => s

/-- One round of `_ensure_saved_slots`. -/
def reserve (answers : Std → SlotAnswers) (fd : Std) (s : Process) : Process × Bool :=
  if s.hasStdioStream config fd = false then (s, false)
  else if (s.slot (.raw fd)).isSome then (s, true)
  else
    match s.table fd.number with
    | none => (s, false)
    | some descriptor =>
      match placeAbove ⟨descriptor.file, false⟩ s.table [] (answers fd).raw with
      | (table, none) => ({ s with table := table }, false)
      | (table, some raw) =>
        match placeAbove ⟨descriptor.file, false⟩ table [] (answers fd).stream with
        | (table, none) => ({ s with table := Function.update table raw none }, false)
        | (table, some stream) =>
          if (answers fd).fdopen then
            ({ s with
                table := table
                slot := Function.update (Function.update s.slot (.raw fd) (some raw)) (.stream fd)
                  (some stream) }, true)
          else
            ({ s with table := Function.update (Function.update table raw none) stream none },
              false)

/-- Refresh the slots of a descriptor, and note its flag. -/
def refresh (answers : Answers) (fd : Std) (s : Process) : Process × Bool :=
  match s.table fd.number, s.slot (.raw fd), s.slot (.stream fd) with
  | some descriptor, some raw, some stream =>
    match dup2 fd.number raw false (answers.refreshRaw fd) s.table with
    | none => (s, false)
    | some table =>
      match dup2 fd.number stream false (answers.refreshStream fd) table with
      | none => ({ s with table := table }, false)
      | some table =>
        ({ s with
            table := table
            activeInheritable :=
              Function.update s.activeInheritable fd (some descriptor.inheritable) }, true)
  | _, _, _ => (s, false)

/-- A loop over descriptors that keeps those its body succeeds for. -/
def collect (body : Std → Process → Process × Bool) : List Std → Process → Process × List Std
  | [], s => (s, [])
  | fd :: fds, s =>
    let (s, kept) := body fd s
    let (s, others) := collect body fds s
    (s, if kept then fd :: others else others)

def moveStream (capturable : List Std) (fd : Std) (s : Process) : Process :=
  if fd ∈ capturable ∧ s.follows config (s.streams fd) fd = true then
    { s with
      preScopeStreams := Function.update s.preScopeStreams fd (s.streams fd)
      streams := Function.update s.streams fd (some (.saved fd)) }
  else s

/-- Whether the console handler is one to be moved. -/
def movesHandler (capturable : List Std) (s : Process) : Bool :=
  config.hasHandler && decide (.err ∈ capturable) && s.follows config s.handlerStream .err

def moveHandler (capturable : List Std) (s : Process) : Process :=
  if s.movesHandler config capturable = true then
    { s with
      preScopeHandlerStream := s.handlerStream
      handlerStream := some (.saved .err) }
  else s

/-- The stream is noted, but setting the new one raises. -/
def noteHandler (capturable : List Std) (s : Process) : Process :=
  if s.movesHandler config capturable = true then
    { s with preScopeHandlerStream := s.handlerStream }
  else s

/-- Move Python's streams, up to where it raises. -/
def moveStreams (capturable : List Std) (raisesAfter : Option ℕ) (s : Process) : Process :=
  let s₁ := s.moveStream config capturable .out
  let s₂ := s₁.moveStream config capturable .err
  match raisesAfter with
  | some 0 => s
  | some 1 => s₁
  | some 2 => s₂
  | some _ => s₂.noteHandler config capturable
  | none => s₂.moveHandler config capturable

/-- Put one descriptor back. -/
def restore (succeeds : Std → Bool) (s : Process) (fd : Std) : Process :=
  match s.slot (.raw fd), s.activeInheritable fd with
  | some raw, some inheritable =>
    match dup2 raw fd.number inheritable (succeeds fd) s.table with
    | some table => { s with table := table }
    | none => { s with lost := Function.update s.lost fd true }
  | _, _ => s

/-- `_end`, `succeeds` being how the `dup2` of a descriptor turns out. -/
def endScope (succeeds : Std → Bool) (s : Process) : Process :=
  let s := s.active.foldl (restore succeeds) s
  { s with
    streams := fun fd => s.preScopeStreams fd <|> s.streams fd
    handlerStream :=
      if config.hasHandler then s.preScopeHandlerStream <|> s.handlerStream else s.handlerStream
    preScopeStreams := fun _ => none
    preScopeHandlerStream := none
    active := []
    activeInheritable := fun _ => none }

/-- Point the descriptors at the capture file; the first that fails undoes the others. -/
def rebind (answers : Answers) (sink : ℕ) : List Std → List Std → Process → Process
  | [], rebound, s => { s with active := rebound }
  | fd :: fds, rebound, s =>
    match s.activeInheritable fd with
    | some inheritable =>
      match dup2 sink fd.number inheritable (answers.rebind fd) s.table with
      | some table => rebind answers sink fds (rebound ++ [fd]) { s with table := table }
      | none => endScope config answers.undo { s with active := rebound }
    | none => s

/-- `_begin`, and whether it raises. -/
def begin (answers : Answers) (s : Process) : Process × Bool :=
  let s := { s with active := [], activeInheritable := fun _ => none }
  let s := s.ensureSink config answers.sink
  match s.slot .sink with
  | none => (s, false)
  | some sink =>
    let (s, candidates) := collect (reserve config answers.slots) [.out, .err] s
    if candidates = [] then (s, false)
    else if answers.interrupted then (s, true)
    else
      let (s, capturable) := collect (refresh answers) candidates s
      let s := { s with preScopeStreams := fun _ => none, preScopeHandlerStream := none }
      let s := s.moveStreams config capturable answers.raisesAfter
      if answers.raisesAfter.isSome then (s.endScope config answers.undo, true)
      else (s.rebind config answers sink capturable [], false)

end Process

/-- What happens to the process.  The host does as it likes outside the scopes; inside, it keeps to
descriptors of its own. -/
inductive Event
  | enter (answers : Answers)
  | exit (succeeds : Std → Bool)
  | host (table : Table) (streams : Std → Option Stream) (handlerStream : Option Stream)
  | others (table : Table)

namespace Process

/-- Entering a scope; a begin that raises leaves no scope open. -/
def enter (answers : Answers) (s : Process) : Process :=
  if s.depth = 0 then
    match begin config answers { s with before := s.snapshot, lost := fun _ => false } with
    | (s, true) => s
    | (s, false) => { s with depth := 1 }
  else { s with depth := s.depth + 1 }

def exit (succeeds : Std → Bool) (s : Process) : Option Process :=
  match s.depth with
  | 0 => none
  | 1 => some { s.endScope config succeeds with depth := 0 }
  | depth + 2 => some { s with depth := depth + 1 }

/-- Whether a descriptor is one of the module's. -/
def keeps (s : Process) (n : ℕ) : Bool :=
  [Slot.sink, .raw .out, .raw .err, .stream .out, .stream .err].any fun a => s.slot a = some n

def host (table : Table) (streams : Std → Option Stream) (handlerStream : Option Stream)
    (s : Process) : Option Process :=
  if s.depth = 0 then
    let s := { s with
      table := fun n => if s.keeps n then s.table n else table n
      streams := streams
      handlerStream := handlerStream }
    some { s with before := s.snapshot, lost := fun _ => false }
  else none

def others (table : Table) (s : Process) : Process :=
  { s with table := fun n => if n ≤ 2 ∨ s.keeps n = true then s.table n else table n }

def step (s : Process) : Event → Option Process
  | .enter answers => some (s.enter config answers)
  | .exit succeeds => s.exit config succeeds
  | .host table streams handlerStream => s.host table streams handlerStream
  | .others table => some (s.others table)

def run (s : Process) : List Event → Option Process
  | [] => some s
  | event :: events => (s.step config event).bind fun s' => s'.run events

/-- A process that has not captured anything yet. -/
def fresh (table : Table) (streams : Std → Option Stream) (handlerStream : Option Stream) :
    Process where
  table := table
  slot _ := none
  streams := streams
  handlerStream := handlerStream
  active := []
  activeInheritable _ := none
  preScopeStreams _ := none
  preScopeHandlerStream := none
  depth := 0
  before := ⟨fun fd => table fd.number, streams, handlerStream⟩
  lost _ := false

end Process

/-! ### Slots -/

theorem Std.number_le (fd : Std) : fd.number ≤ 2 := by
  cases fd <;> decide

theorem Std.number_inj {fd fd' : Std} (h : fd.number = fd'.number) : fd = fd' := by
  cases fd <;> cases fd' <;> simp_all [Std.number]

@[simp] theorem closeAll_nil (table : Table) : closeAll [] table = table := by
  funext n
  simp [closeAll]

/-- **`_move_above_std`** leaves 0, 1 and 2 as they were, whether it fails or not. -/
theorem placeAbove_spec (descriptor : Descriptor) (answers : List (Option ℕ)) {table : Table}
    {low : List ℕ} (hlow : ∀ n ∈ low, n ≤ 2) :
    placeAbove descriptor table low answers = (closeAll low table, none) ∨
      ∃ n, 2 < n ∧ table n = none ∧ placeAbove descriptor table low answers =
        (Function.update (closeAll low table) n (some descriptor), some n) := by
  induction answers generalizing table low with
  | nil => exact .inl rfl
  | cons answer answers ih =>
    cases answer with
    | none => exact .inl rfl
    | some n =>
      rw [placeAbove]
      split
      · rename_i hfree
        split
        · rename_i habove
          refine .inr ⟨n, habove, hfree, Prod.ext ?_ rfl⟩
          funext m
          have hn : n ∉ low := fun hmem => absurd (hlow n hmem) (by omega)
          by_cases hm : m = n
          · simp [closeAll, hm, hn]
          · simp [closeAll, Function.update_of_ne hm]
        · rename_i hbelow
          -- A low number is used for the next call only, and closed in the end.
          have hclosed : closeAll (low ++ [n]) (Function.update table n (some descriptor)) =
              closeAll low table := by
            funext m
            by_cases hm : m = n
            · simp [closeAll, hm, hfree]
            · simp [closeAll, hm]
          have hlow' : ∀ m ∈ low ++ [n], m ≤ 2 := by
            intro m hm
            rcases List.mem_append.mp hm with hm | hm
            · exact hlow m hm
            · rw [List.mem_singleton.mp hm]
              omega
          rcases ih hlow' with hnone | ⟨m, habove, hfree', hsome⟩
          · exact .inl (hnone.trans (by rw [hclosed]))
          · have hne : m ≠ n := by omega
            rw [Function.update_of_ne hne] at hfree'
            exact .inr ⟨m, habove, hfree', hsome.trans (by rw [hclosed])⟩
      · exact .inl rfl

/-- The same, from the start. -/
theorem placeAbove_cases (descriptor : Descriptor) (table : Table) (answers : List (Option ℕ)) :
    placeAbove descriptor table [] answers = (table, none) ∨
      ∃ n, 2 < n ∧ table n = none ∧ placeAbove descriptor table [] answers =
        (Function.update table n (some descriptor), some n) := by
  have hplace := @placeAbove_spec descriptor answers table [] (by simp)
  rwa [closeAll_nil] at hplace

namespace Process

/-- The slots are open, apart from each other and clear of the standard descriptors. -/
structure Slots (s : Process) : Prop where
  above : ∀ a n, s.slot a = some n → 2 < n ∧ s.table n ≠ none
  injective : ∀ a b n, s.slot a = some n → s.slot b = some n → a = b
  sink : ∀ n, s.slot .sink = some n → s.table n = some ⟨config.sinkFile, false⟩

/-- Nothing the host can see has changed. -/
structure Quiet (s t : Process) : Prop where
  low : ∀ fd : Std, t.table fd.number = s.table fd.number
  streams : t.streams = s.streams
  handlerStream : t.handlerStream = s.handlerStream
  preScopeStreams : t.preScopeStreams = s.preScopeStreams
  preScopeHandlerStream : t.preScopeHandlerStream = s.preScopeHandlerStream
  active : t.active = s.active
  depth : t.depth = s.depth
  before : t.before = s.before
  lost : t.lost = s.lost
  sink : s.slot .sink ≠ none → t.slot .sink = s.slot .sink

theorem Quiet.refl (s : Process) : s.Quiet s :=
  ⟨fun _ => rfl, rfl, rfl, rfl, rfl, rfl, rfl, rfl, rfl, fun _ => rfl⟩

theorem Quiet.trans {s t u : Process} (h : s.Quiet t) (h' : t.Quiet u) : s.Quiet u :=
  ⟨fun fd => (h'.low fd).trans (h.low fd), h'.streams.trans h.streams,
    h'.handlerStream.trans h.handlerStream, h'.preScopeStreams.trans h.preScopeStreams,
    h'.preScopeHandlerStream.trans h.preScopeHandlerStream, h'.active.trans h.active,
    h'.depth.trans h.depth, h'.before.trans h.before, h'.lost.trans h.lost,
    fun hsink => (h'.sink (h.sink hsink ▸ hsink)).trans (h.sink hsink)⟩

/-- Another table that is the same at 1 and 2. -/
theorem quiet_table {s : Process} {table : Table} {slot : Slot → Option ℕ}
    {activeInheritable : Std → Option Bool}
    (h : ∀ fd : Std, table fd.number = s.table fd.number)
    (hsink : s.slot .sink ≠ none → slot .sink = s.slot .sink) :
    s.Quiet { s with table := table, slot := slot, activeInheritable := activeInheritable } :=
  ⟨h, rfl, rfl, rfl, rfl, rfl, rfl, rfl, rfl, hsink⟩

/-- A number above 2 is none of the standard descriptors. -/
theorem update_number {table : Table} {n : ℕ} (hn : 2 < n) (descriptor : Option Descriptor)
    (fd : Std) : Function.update table n descriptor fd.number = table fd.number := by
  have hle := fd.number_le
  exact Function.update_of_ne (by omega) _ _

/-- A new slot at a free number. -/
theorem Slots.insert {s : Process} (h : s.Slots config) {a : Slot} {n : ℕ} {descriptor : Descriptor}
    (hn : 2 < n) (hfree : s.table n = none)
    (hsink : a = .sink → descriptor = ⟨config.sinkFile, false⟩) :
    Slots config { s with
      table := Function.update s.table n (some descriptor)
      slot := Function.update s.slot a (some n) } := by
  -- The numbers in use are open, so the new one is none of them.
  have hother : ∀ b m, s.slot b = some m → m ≠ n := by
    rintro b m hb rfl
    exact (h.above b m hb).2 hfree
  refine ⟨fun b m hb => ?_, fun b c m hb hc => ?_, fun m hm => ?_⟩
  · by_cases hba : b = a
    · obtain rfl : n = m := by simpa [hba] using hb
      exact ⟨hn, by simp⟩
    · have hold : s.slot b = some m := by simpa [hba] using hb
      have hne := hother b m hold
      simpa [Function.update_of_ne hne] using h.above b m hold
  · by_cases hba : b = a <;> by_cases hca : c = a
    · rw [hba, hca]
    · have hm : n = m := by simpa [hba] using hb
      have hold : s.slot c = some m := by simpa [hca] using hc
      exact absurd hm.symm (hother c m hold)
    · have hm : n = m := by simpa [hca] using hc
      have hold : s.slot b = some m := by simpa [hba] using hb
      exact absurd hm.symm (hother b m hold)
    · exact h.injective b c m (by simpa [hba] using hb) (by simpa [hca] using hc)
  · by_cases ha : Slot.sink = a
    · obtain rfl : n = m := by simpa [ha] using hm
      simp [hsink ha.symm]
    · have hold : s.slot .sink = some m := by simpa [ha] using hm
      simpa [Function.update_of_ne (hother _ m hold)] using h.sink m hold

theorem ensureSink_spec {s : Process} (h : s.Slots config) (answers : Option (List (Option ℕ))) :
    Slots config (s.ensureSink config answers) ∧ s.Quiet (s.ensureSink config answers) := by
  unfold ensureSink
  split
  · rename_i numbers hslot
    rcases placeAbove_cases ⟨config.sinkFile, false⟩ s.table numbers with
      hnone | ⟨n, hn, hfree, hsome⟩
    · rw [hnone]
      have hsame : Function.update s.slot .sink none = s.slot := by
        rw [← hslot, Function.update_eq_self]
      simp only [hsame]
      exact ⟨h, Quiet.refl s⟩
    · rw [hsome]
      exact ⟨h.insert config hn hfree fun _ => rfl,
        quiet_table (update_number hn _) fun hsome => absurd hslot hsome⟩
  · exact ⟨h, Quiet.refl s⟩

theorem reserve_spec {s : Process} (h : s.Slots config) (answers : Std → SlotAnswers) (fd : Std) :
    Slots config (s.reserve config answers fd).1 ∧ s.Quiet (s.reserve config answers fd).1 := by
  unfold reserve
  split
  · exact ⟨h, Quiet.refl s⟩
  split
  · exact ⟨h, Quiet.refl s⟩
  split
  · exact ⟨h, Quiet.refl s⟩
  rename_i descriptor _
  rcases placeAbove_cases ⟨descriptor.file, false⟩ s.table (answers fd).raw with
    hnone | ⟨raw, hraw, hfree, hsome⟩
  · rw [hnone]
    exact ⟨h, Quiet.refl s⟩
  rw [hsome]
  simp only
  rcases placeAbove_cases ⟨descriptor.file, false⟩
    (Function.update s.table raw (some ⟨descriptor.file, false⟩)) (answers fd).stream with
    hnone' | ⟨stream, hstream, hfree', hsome'⟩
  · -- The first copy is closed again.
    rw [hnone']
    simp only [Function.update_idem]
    rw [← hfree, Function.update_eq_self]
    exact ⟨h, Quiet.refl s⟩
  have hne : stream ≠ raw := by
    rintro rfl
    simp at hfree'
  rw [hsome']
  simp only
  split
  · have hfirst := @Slots.insert config s h (.raw fd) raw ⟨descriptor.file, false⟩ hraw hfree
      (by simp)
    have hsecond := @Slots.insert config _ hfirst (.stream fd) stream ⟨descriptor.file, false⟩
      hstream hfree' (by simp)
    refine ⟨hsecond, quiet_table (fun fd => ?_) fun _ => ?_⟩
    · rw [update_number hstream, update_number hraw]
    · simp
  · have hback : Function.update (Function.update (Function.update
        (Function.update s.table raw (some ⟨descriptor.file, false⟩)) stream
        (some ⟨descriptor.file, false⟩)) raw none) stream none = s.table := by
      funext m
      rw [Function.update_of_ne hne] at hfree'
      by_cases hm : m = stream
      · simp [hm, hfree']
      · by_cases hm' : m = raw
        · simp [hm', hne.symm, hfree]
        · simp [hm, hm']
    simp only [hback]
    exact ⟨h, Quiet.refl s⟩

/-- The slots of a descriptor hold copies of what it was before the first scope. -/
def Saved (s : Process) (fd : Std) : Prop :=
  ∃ descriptor raw stream, s.before.fds fd = some descriptor ∧
    s.slot (.raw fd) = some raw ∧ s.table raw = some ⟨descriptor.file, false⟩ ∧
    s.slot (.stream fd) = some stream ∧ s.table stream = some ⟨descriptor.file, false⟩ ∧
    s.activeInheritable fd = some descriptor.inheritable

/-- The slots are about their own descriptors only. -/
theorem Slots.of_kept {s t : Process} (h : s.Slots config) (hslot : t.slot = s.slot)
    (hkept : ∀ a n, s.slot a = some n → t.table n = s.table n) : t.Slots config := by
  refine ⟨fun a n ha => ?_, fun a b n ha hb => ?_, fun n hn => ?_⟩
  · rw [hslot] at ha
    rw [hkept a n ha]
    exact h.above a n ha
  · rw [hslot] at ha hb
    exact h.injective a b n ha hb
  · rw [hslot] at hn
    rw [hkept _ n hn]
    exact h.sink n hn

theorem Saved.of_kept {s t : Process} {fd : Std} (h : s.Saved fd) (hslot : t.slot = s.slot)
    (hkept : ∀ a n, s.slot a = some n → t.table n = s.table n) (hbefore : t.before = s.before)
    (hinheritable : t.activeInheritable = s.activeInheritable) : t.Saved fd := by
  obtain ⟨d, raw, stream, hd, hraw, htraw, hstream, htstream, hflag⟩ := h
  refine ⟨d, raw, stream, by rw [hbefore, hd], by rw [hslot, hraw], ?_, by rw [hslot, hstream], ?_,
    by rw [hinheritable, hflag]⟩
  · rw [hkept _ raw hraw, htraw]
  · rw [hkept _ stream hstream, htstream]

theorem Slots.overwrite {s : Process} (h : s.Slots config) {a : Slot} {n : ℕ}
    (hslot : s.slot a = some n) (ha : a ≠ .sink) (descriptor : Descriptor) :
    Slots config { s with table := Function.update s.table n (some descriptor) } := by
  refine ⟨fun b m hb => ?_, h.injective, fun m hm => ?_⟩
  · refine ⟨(h.above b m hb).1, ?_⟩
    by_cases hmn : m = n
    · simp [hmn]
    · simpa [Function.update_of_ne hmn] using (h.above b m hb).2
  · have hne : m ≠ n := by
      rintro rfl
      exact ha (h.injective a .sink m hslot hm)
    simpa [Function.update_of_ne hne] using h.sink m hm

theorem dup2_eq_some {source target : ℕ} {inheritable succeeds : Bool} {table table' : Table}
    (h : dup2 source target inheritable succeeds table = some table') :
    ∃ descriptor, table source = some descriptor ∧
      table' = Function.update table target (some ⟨descriptor.file, inheritable⟩) := by
  unfold dup2 at h
  split at h
  · cases h
  · rename_i descriptor hsource
    split at h
    · exact ⟨descriptor, hsource, (Option.some.inj h).symm⟩
    · cases h

/-- Writing to the slots of one descriptor leaves those of the other. -/
theorem Slots.update_other {s : Process} (h : s.Slots config) {a b : Slot} {n m : ℕ}
    (ha : s.slot a = some n) (hb : s.slot b = some m) (hne : a ≠ b)
    (descriptor : Option Descriptor) :
    Function.update s.table n descriptor m = s.table m := by
  refine Function.update_of_ne ?_ _ _
  rintro rfl
  exact hne (h.injective a b m ha hb)

theorem refresh_spec {s : Process} (h : s.Slots config) (answers : Answers) (fd : Std)
    (hlow : ∀ fd : Std, s.table fd.number = s.before.fds fd) :
    Slots config (s.refresh answers fd).1 ∧ s.Quiet (s.refresh answers fd).1 ∧
      ((s.refresh answers fd).2 = true → Saved (s.refresh answers fd).1 fd) ∧
      ∀ fd', fd' ≠ fd → s.Saved fd' → Saved (s.refresh answers fd).1 fd' := by
  unfold refresh
  split
  · rename_i descriptor raw stream hfd hraw hstream
    split
    · exact ⟨h, Quiet.refl s, by simp, fun _ _ hsaved => hsaved⟩
    · rename_i table htable
      obtain ⟨copied, hcopied, rfl⟩ := dup2_eq_some htable
      obtain rfl : descriptor = copied := Option.some.inj (hfd.symm.trans hcopied)
      have hraw' := h.above _ raw hraw
      have hstream' := h.above _ stream hstream
      have hfirst := h.overwrite config hraw (by simp) ⟨descriptor.file, false⟩
      -- The first copy does not touch the slots of the other descriptor.
      have hkeep : ∀ fd', fd' ≠ fd → s.Saved fd' → Saved
          { s with table := Function.update s.table raw (some ⟨descriptor.file, false⟩) } fd' := by
        rintro fd' hne ⟨d, n, m, hd, hn, htn, hm, htm, hinheritable⟩
        refine ⟨d, n, m, hd, hn, ?_, hm, ?_, hinheritable⟩
        · simpa [h.update_other config hraw hn (by simpa using hne.symm)] using htn
        · simpa [h.update_other config hraw hm (by simp)] using htm
      split
      · exact ⟨hfirst, quiet_table (update_number hraw'.1 _) fun _ => rfl, by simp, hkeep⟩
      · rename_i table' htable'
        obtain ⟨again, hagain, rfl⟩ := dup2_eq_some htable'
        rw [update_number hraw'.1] at hagain
        obtain rfl : descriptor = again := Option.some.inj (hfd.symm.trans hagain)
        have hsecond := hfirst.overwrite config hstream (by simp) ⟨descriptor.file, false⟩
        refine ⟨⟨hsecond.above, hsecond.injective, hsecond.sink⟩, quiet_table (fun fd' => ?_)
          (fun _ => rfl), fun _ => ?_, ?_⟩
        · rw [update_number hstream'.1, update_number hraw'.1]
        · refine ⟨descriptor, raw, stream, (hlow fd).symm.trans hfd, hraw, ?_, hstream, by simp,
            by simp⟩
          have hne := hfirst.update_other config hstream hraw (by simp)
            (some ⟨descriptor.file, false⟩)
          simpa using hne
        · intro fd' hne hsaved
          obtain ⟨d, n, m, hd, hn, htn, hm, htm, hinheritable⟩ := hkeep fd' hne hsaved
          refine ⟨d, n, m, hd, hn, ?_, hm, ?_, ?_⟩
          · have hother := hfirst.update_other config hstream hn (by simp)
              (some ⟨descriptor.file, false⟩)
            exact hother.trans htn
          · have hother := hfirst.update_other config hstream hm (by simpa using hne.symm)
              (some ⟨descriptor.file, false⟩)
            exact hother.trans htm
          · simpa [Function.update_of_ne hne] using hinheritable
  · exact ⟨h, Quiet.refl s, by simp, fun _ _ hsaved => hsaved⟩

/-- What every round of a loop keeps, the loop keeps. -/
theorem collect_spec {body : Std → Process → Process × Bool} {P : Process → Prop}
    (hbody : ∀ fd s, P s → P (body fd s).1) (fds : List Std) {s : Process} (h : P s) :
    P (collect body fds s).1 := by
  induction fds generalizing s with
  | nil => exact h
  | cons fd fds ih => exact ih (hbody fd s h)

theorem collect_sublist (body : Std → Process → Process × Bool) (fds : List Std) (s : Process) :
    (collect body fds s).2.Sublist fds := by
  induction fds generalizing s with
  | nil => exact List.Sublist.slnil
  | cons fd fds ih =>
    simp only [collect]
    split
    · exact (ih _).cons_cons fd
    · exact (ih _).cons fd

/-- The candidates whose slots could be refreshed are saved. -/
theorem collect_refresh_spec {s : Process} (h : s.Slots config) (answers : Answers)
    (hlow : ∀ fd : Std, s.table fd.number = s.before.fds fd) {fds : List Std} (hfds : fds.Nodup) :
    Slots config (collect (refresh answers) fds s).1 ∧
      s.Quiet (collect (refresh answers) fds s).1 ∧
      (∀ fd ∈ (collect (refresh answers) fds s).2, Saved (collect (refresh answers) fds s).1 fd) ∧
      ∀ fd, fd ∉ fds → s.Saved fd → Saved (collect (refresh answers) fds s).1 fd := by
  induction fds generalizing s with
  | nil => exact ⟨h, Quiet.refl s, by simp [collect], fun _ _ hsaved => hsaved⟩
  | cons fd fds ih =>
    obtain ⟨hnew, hrest⟩ := List.nodup_cons.mp hfds
    obtain ⟨hslots, hquiet, hsaved, hkeep⟩ := refresh_spec config h answers fd hlow
    -- Refreshing a descriptor leaves the standard ones as they are.
    have hlow' : ∀ fd', (s.refresh answers fd).1.table (Std.number fd') =
        (s.refresh answers fd).1.before.fds fd' := by
      intro fd'
      rw [hquiet.low, hquiet.before, hlow]
    obtain ⟨hslots', hquiet', hsaved', hkeep'⟩ := ih hslots hlow' hrest
    refine ⟨hslots', hquiet.trans hquiet', fun fd' hfd' => ?_, fun fd' hfd' hsaved₀ => ?_⟩
    · simp only [collect] at hfd'
      split at hfd'
      · rename_i hkept
        rcases List.mem_cons.mp hfd' with rfl | hmem
        · exact hkeep' fd' hnew (hsaved hkept)
        · exact hsaved' fd' hmem
      · exact hsaved' fd' hfd'
    · rw [List.mem_cons, not_or] at hfd'
      exact hkeep' fd' hfd'.2 (hkeep fd' hfd'.1 hsaved₀)

/-! ### Ending a scope -/

/-- What `_end` needs in order to put everything back. -/
structure Undoable (s : Process) : Prop where
  slots : s.Slots config
  untouched : ∀ fd, fd ∉ s.active → s.lost fd = false → s.table fd.number = s.before.fds fd
  saved : ∀ fd ∈ s.active, s.Saved fd
  streams : ∀ fd, (s.preScopeStreams fd <|> s.streams fd) = s.before.streams fd
  handler : (if config.hasHandler then s.preScopeHandlerStream <|> s.handlerStream
    else s.handlerStream) = s.before.handlerStream

/-- A process as it was before the first scope, but for what is lost. -/
structure Restored (s : Process) : Prop where
  slots : s.Slots config
  active : s.active = []
  fds : ∀ fd, s.lost fd = false → s.table fd.number = s.before.fds fd
  streams : s.streams = s.before.streams
  handlerStream : s.handlerStream = s.before.handlerStream
  preScopeStreams : ∀ fd, s.preScopeStreams fd = none
  preScopeHandlerStream : s.preScopeHandlerStream = none

/-- What one `dup2` of `_end` leaves alone. -/
structure Restores (s t : Process) : Prop where
  slot : t.slot = s.slot
  table : ∀ n, 2 < n → t.table n = s.table n
  streams : t.streams = s.streams
  handlerStream : t.handlerStream = s.handlerStream
  activeInheritable : t.activeInheritable = s.activeInheritable
  preScopeStreams : t.preScopeStreams = s.preScopeStreams
  preScopeHandlerStream : t.preScopeHandlerStream = s.preScopeHandlerStream
  before : t.before = s.before
  depth : t.depth = s.depth

theorem Restores.refl (s : Process) : s.Restores s :=
  ⟨rfl, fun _ _ => rfl, rfl, rfl, rfl, rfl, rfl, rfl, rfl⟩

theorem Restores.trans {s t u : Process} (h : s.Restores t) (h' : t.Restores u) : s.Restores u :=
  ⟨h'.slot.trans h.slot, fun n hn => (h'.table n hn).trans (h.table n hn),
    h'.streams.trans h.streams, h'.handlerStream.trans h.handlerStream,
    h'.activeInheritable.trans h.activeInheritable, h'.preScopeStreams.trans h.preScopeStreams,
    h'.preScopeHandlerStream.trans h.preScopeHandlerStream, h'.before.trans h.before,
    h'.depth.trans h.depth⟩

theorem Restores.slots {s t : Process} (h : s.Restores t) (hslots : s.Slots config) :
    t.Slots config :=
  hslots.of_kept config h.slot fun a n ha => h.table n (hslots.above a n ha).1

theorem Restores.saved {s t : Process} (h : s.Restores t) (hslots : s.Slots config) {fd : Std}
    (hsaved : s.Saved fd) : t.Saved fd :=
  hsaved.of_kept h.slot (fun a n ha => h.table n (hslots.above a n ha).1) h.before
    h.activeInheritable

/-- A saved descriptor is put back, or it is lost. -/
theorem restore_spec {s : Process} (succeeds : Std → Bool) {fd : Std} (hsaved : s.Saved fd) :
    s.Restores (s.restore succeeds fd) ∧
      ((s.restore succeeds fd).lost fd = false →
        (s.restore succeeds fd).table fd.number = s.before.fds fd) ∧
      (succeeds fd = true → (s.restore succeeds fd).lost fd = s.lost fd) ∧
      ∀ fd', fd' ≠ fd → (s.restore succeeds fd).lost fd' = s.lost fd' ∧
        (s.restore succeeds fd).table fd'.number = s.table fd'.number := by
  obtain ⟨d, raw, stream, hd, hraw, htable, _, _, hinheritable⟩ := hsaved
  have hfd := fd.number_le
  unfold restore
  rw [hraw, hinheritable]
  simp only
  split
  · rename_i table hdup
    obtain ⟨copied, hcopied, rfl⟩ := dup2_eq_some hdup
    rw [htable] at hcopied
    obtain rfl := Option.some.inj hcopied
    refine ⟨⟨rfl, fun n hn => Function.update_of_ne (by omega) _ _, rfl, rfl, rfl, rfl, rfl, rfl,
      rfl⟩, fun _ => ?_, fun _ => rfl, fun fd' hne => ⟨rfl, ?_⟩⟩
    · rw [hd]
      exact Function.update_self _ _ _
    · exact Function.update_of_ne (fun heq => hne (Std.number_inj heq)) _ _
  · rename_i hdup
    refine ⟨⟨rfl, fun _ _ => rfl, rfl, rfl, rfl, rfl, rfl, rfl, rfl⟩, fun hlost => ?_,
      fun hsucceeds => ?_, fun fd' hne => ⟨?_, rfl⟩⟩
    · simp at hlost
    · -- The slot is open, so that the call fails only where it is said to.
      simp [dup2, htable, hsucceeds] at hdup
    · exact Function.update_of_ne hne _ _

/-- The loop of `_end`. -/
theorem foldl_restore_spec (succeeds : Std → Bool) {fds : List Std} {s : Process}
    (hslots : s.Slots config) (hsaved : ∀ fd ∈ fds, s.Saved fd)
    (huntouched : ∀ fd, fd ∉ fds → s.lost fd = false → s.table fd.number = s.before.fds fd) :
    s.Restores (fds.foldl (restore succeeds) s) ∧
      ∀ fd, ((fds.foldl (restore succeeds) s).lost fd = false →
        (fds.foldl (restore succeeds) s).table fd.number = s.before.fds fd) ∧
        (succeeds fd = true → (fds.foldl (restore succeeds) s).lost fd = s.lost fd) := by
  induction fds generalizing s with
  | nil => exact ⟨Restores.refl s, fun fd => ⟨huntouched fd (by simp), fun _ => rfl⟩⟩
  | cons fd fds ih =>
    obtain ⟨hrestores, hback, hkeep, hother⟩ := restore_spec succeeds (hsaved fd List.mem_cons_self)
    -- One descriptor is put back, and the others are left as they are.
    have huntouched' : ∀ fd', fd' ∉ fds → (s.restore succeeds fd).lost fd' = false →
        (s.restore succeeds fd).table fd'.number = (s.restore succeeds fd).before.fds fd' := by
      intro fd' hfd' hlost
      rw [hrestores.before]
      by_cases heq : fd' = fd
      · rw [heq] at hlost ⊢
        exact hback hlost
      · obtain ⟨hlost', htable⟩ := hother fd' heq
        rw [htable]
        exact huntouched fd' (by simp [heq, hfd']) (hlost' ▸ hlost)
    obtain ⟨hrest, hfds⟩ := ih (hrestores.slots config hslots)
      (fun fd' hfd' => hrestores.saved config hslots (hsaved fd' (List.mem_cons_of_mem fd hfd')))
      huntouched'
    refine ⟨hrestores.trans hrest, fun fd' => ⟨fun hlost => ?_, fun hsucceeds => ?_⟩⟩
    · rw [List.foldl_cons, (hfds fd').1 hlost, hrestores.before]
    · rw [List.foldl_cons, (hfds fd').2 hsucceeds]
      by_cases heq : fd' = fd
      · rw [heq] at hsucceeds ⊢
        exact hkeep hsucceeds
      · exact (hother fd' heq).1

/-- **`_end` puts everything back** that no failing `dup2` loses. -/
theorem Undoable.endScope {s : Process} (h : s.Undoable config) (succeeds : Std → Bool) :
    Restored config (s.endScope config succeeds) ∧
      (s.endScope config succeeds).before = s.before ∧
      (s.endScope config succeeds).depth = s.depth ∧
      ∀ fd, succeeds fd = true → (s.endScope config succeeds).lost fd = s.lost fd := by
  obtain ⟨hrestores, hfds⟩ := foldl_restore_spec config succeeds h.slots h.saved h.untouched
  have hbefore : (s.endScope config succeeds).before = s.before := hrestores.before
  refine ⟨⟨?_, rfl, ?_, ?_, ?_, fun _ => rfl, rfl⟩, hbefore, hrestores.depth, fun fd => (hfds fd).2⟩
  · exact (hrestores.slots config h.slots).of_kept config rfl fun _ _ _ => rfl
  · intro fd hlost
    rw [hbefore]
    exact (hfds fd).1 hlost
  · funext fd
    rw [hbefore]
    show (_ <|> _ : Option Stream) = s.before.streams fd
    rw [hrestores.preScopeStreams, hrestores.streams]
    exact h.streams fd
  · rw [hbefore]
    show ite _ _ _ = s.before.handlerStream
    rw [hrestores.preScopeHandlerStream, hrestores.handlerStream]
    exact h.handler

/-! ### Beginning a scope -/

/-- Where the stream of a descriptor is, when the streams of those in `moved` have been moved. -/
def StreamOk (s : Process) (moved : List Std) (fd : Std) : Prop :=
  if fd ∈ moved ∧ s.follows config (s.before.streams fd) fd = true then
    s.preScopeStreams fd = s.before.streams fd ∧ s.streams fd = some (.saved fd)
  else s.preScopeStreams fd = none ∧ s.streams fd = s.before.streams fd

def HandlerOk (s : Process) (moved : List Std) : Prop :=
  if config.hasHandler = true ∧ .err ∈ moved ∧
      s.follows config s.before.handlerStream .err = true then
    s.preScopeHandlerStream = s.before.handlerStream ∧ s.handlerStream = some (.saved .err)
  else s.preScopeHandlerStream = none ∧ s.handlerStream = s.before.handlerStream

/-- A descriptor points at the capture file, with the flag it had. -/
def PointsAtSink (s : Process) (fd : Std) : Prop :=
  ∃ descriptor, s.before.fds fd = some descriptor ∧
    s.table fd.number = some ⟨config.sinkFile, descriptor.inheritable⟩

/-- The active descriptors are captured, with their streams moved; the others are untouched. -/
structure Scope (s : Process) : Prop where
  slots : s.Slots config
  untouched : ∀ fd, fd ∉ s.active → s.lost fd = false → s.table fd.number = s.before.fds fd
  saved : ∀ fd ∈ s.active, s.Saved fd
  captured : ∀ fd ∈ s.active, s.PointsAtSink config fd
  streams : ∀ fd, s.StreamOk config s.active fd
  handler : s.HandlerOk config s.active

theorem streamOk_of_moved {s : Process} {moved : List Std} {fd : Std}
    (h : fd ∈ moved ∧ s.follows config (s.before.streams fd) fd = true)
    (hpre : s.preScopeStreams fd = s.before.streams fd)
    (hstream : s.streams fd = some (.saved fd)) : s.StreamOk config moved fd := by
  rw [StreamOk, if_pos h]
  exact ⟨hpre, hstream⟩

theorem handlerOk_of_moved {s : Process} {moved : List Std}
    (h : config.hasHandler = true ∧ .err ∈ moved ∧
      s.follows config s.before.handlerStream .err = true)
    (hpre : s.preScopeHandlerStream = s.before.handlerStream)
    (hstream : s.handlerStream = some (.saved .err)) : s.HandlerOk config moved := by
  rw [HandlerOk, if_pos h]
  exact ⟨hpre, hstream⟩

/-- A stream that is followed is there. -/
theorem follows_isSome {s : Process} {stream : Option Stream} {fd : Std}
    (h : s.follows config stream fd = true) : ∃ x, stream = some x := by
  cases stream with
  | none => cases h
  | some x => exact ⟨x, rfl⟩

theorem StreamOk.back {s : Process} {moved : List Std} {fd : Std}
    (h : s.StreamOk config moved fd) :
    (s.preScopeStreams fd <|> s.streams fd) = s.before.streams fd := by
  unfold StreamOk at h
  split at h
  · rename_i hmoved
    obtain ⟨x, hx⟩ := follows_isSome config hmoved.2
    rw [h.1, hx]
    rfl
  · rw [h.1, h.2]
    rfl

theorem HandlerOk.back {s : Process} {moved : List Std} (h : s.HandlerOk config moved) :
    (if config.hasHandler then s.preScopeHandlerStream <|> s.handlerStream else s.handlerStream) =
      s.before.handlerStream := by
  unfold HandlerOk at h
  split at h
  · rename_i hmoved
    obtain ⟨x, hx⟩ := follows_isSome config hmoved.2.2
    rw [if_pos hmoved.1, h.1, hx]
    rfl
  · rw [h.1, h.2]
    split <;> rfl

theorem Scope.undoable {s : Process} (h : s.Scope config) : s.Undoable config where
  slots := h.slots
  untouched := h.untouched
  saved := h.saved
  streams fd := (h.streams fd).back config
  handler := h.handler.back config

theorem Restored.scope {s : Process} (h : s.Restored config) : s.Scope config where
  slots := h.slots
  untouched fd _ hlost := h.fds fd hlost
  saved fd hfd := by simp [h.active] at hfd
  captured fd hfd := by simp [h.active] at hfd
  streams fd := by
    rw [StreamOk, if_neg (by simp [h.active])]
    exact ⟨h.preScopeStreams fd, congrFun h.streams fd⟩
  handler := by
    rw [HandlerOk, if_neg (by simp [h.active])]
    exact ⟨h.preScopeHandlerStream, h.handlerStream⟩

/-- A quiet step from a restored process, with no flags noted yet, is restored. -/
theorem Restored.quiet {s t : Process} (h : s.Restored config) (hslots : t.Slots config)
    (hquiet : s.Quiet t) : t.Restored config where
  slots := hslots
  active := hquiet.active.trans h.active
  fds fd hlost := by
    rw [hquiet.low, hquiet.before]
    exact h.fds fd (hquiet.lost ▸ hlost)
  streams := by rw [hquiet.streams, hquiet.before, h.streams]
  handlerStream := by rw [hquiet.handlerStream, hquiet.before, h.handlerStream]
  preScopeStreams fd := by rw [hquiet.preScopeStreams, h.preScopeStreams]
  preScopeHandlerStream := by rw [hquiet.preScopeHandlerStream, h.preScopeHandlerStream]

/-- What moving the streams leaves alone. -/
structure Moves (s t : Process) : Prop where
  slot : t.slot = s.slot
  table : t.table = s.table
  activeInheritable : t.activeInheritable = s.activeInheritable
  active : t.active = s.active
  before : t.before = s.before
  lost : t.lost = s.lost
  depth : t.depth = s.depth

theorem Moves.refl (s : Process) : s.Moves s := ⟨rfl, rfl, rfl, rfl, rfl, rfl, rfl⟩

theorem Moves.trans {s t u : Process} (h : s.Moves t) (h' : t.Moves u) : s.Moves u :=
  ⟨h'.slot.trans h.slot, h'.table.trans h.table, h'.activeInheritable.trans h.activeInheritable,
    h'.active.trans h.active, h'.before.trans h.before, h'.lost.trans h.lost,
    h'.depth.trans h.depth⟩

theorem Moves.saved {s t : Process} (h : s.Moves t) {fd : Std} (hsaved : s.Saved fd) :
    t.Saved fd :=
  hsaved.of_kept h.slot (fun _ n _ => congrFun h.table n) h.before h.activeInheritable

theorem Moves.slots {s t : Process} (h : s.Moves t) (hslots : s.Slots config) :
    t.Slots config :=
  hslots.of_kept config h.slot fun _ n _ => congrFun h.table n

theorem moveStream_spec {s : Process} (capturable : List Std) {fd : Std}
    (h : s.StreamOk config [] fd) :
    s.Moves (s.moveStream config capturable fd) ∧
      StreamOk config (s.moveStream config capturable fd) capturable fd ∧
      (∀ fd' moved, fd' ≠ fd → s.StreamOk config moved fd' →
        StreamOk config (s.moveStream config capturable fd) moved fd') ∧
      (s.HandlerOk config [] → HandlerOk config (s.moveStream config capturable fd) []) := by
  -- The stream is still where it was before the scope.
  have hunmoved : s.preScopeStreams fd = none ∧ s.streams fd = s.before.streams fd := by
    simpa [StreamOk] using h
  unfold moveStream
  split
  · rename_i hmoves
    refine ⟨⟨rfl, rfl, rfl, rfl, rfl, rfl, rfl⟩, ?_, fun fd' moved hne hother => ?_, ?_⟩
    · rw [hunmoved.2] at hmoves ⊢
      exact streamOk_of_moved config hmoves (Function.update_self _ _ _)
        (Function.update_self _ _ _)
    · unfold StreamOk at hother ⊢
      simp only [Function.update_of_ne hne]
      exact hother
    · exact fun hhandler => hhandler
  · rename_i hmoves
    refine ⟨Moves.refl s, ?_, fun fd' moved _ hother => hother, fun hhandler => hhandler⟩
    rw [hunmoved.2] at hmoves
    rw [StreamOk, if_neg hmoves]
    exact hunmoved

theorem moveHandler_spec {s : Process} (capturable : List Std) (h : s.HandlerOk config []) :
    s.Moves (s.moveHandler config capturable) ∧
      HandlerOk config (s.moveHandler config capturable) capturable ∧
      ∀ fd moved, s.StreamOk config moved fd →
        StreamOk config (s.moveHandler config capturable) moved fd := by
  have hunmoved : s.preScopeHandlerStream = none ∧ s.handlerStream = s.before.handlerStream := by
    simpa [HandlerOk] using h
  unfold moveHandler
  split
  · rename_i hmoves
    refine ⟨⟨rfl, rfl, rfl, rfl, rfl, rfl, rfl⟩, ?_, fun fd moved hstream => hstream⟩
    have hcond : config.hasHandler = true ∧ .err ∈ capturable ∧
        s.follows config s.before.handlerStream .err = true := by
      simpa [movesHandler, hunmoved.2, and_assoc] using hmoves
    exact handlerOk_of_moved config hcond hunmoved.2 rfl
  · rename_i hmoves
    refine ⟨Moves.refl s, ?_, fun fd moved hstream => hstream⟩
    have hcond : ¬ (config.hasHandler = true ∧ .err ∈ capturable ∧
        s.follows config s.before.handlerStream .err = true) := by
      intro hcond
      exact hmoves (by simpa [movesHandler, hunmoved.2, and_assoc] using hcond)
    rw [HandlerOk, if_neg hcond]
    exact hunmoved

/-- The handler's stream is noted, and still in place. -/
theorem noteHandler_spec {s : Process} (capturable : List Std) (h : s.HandlerOk config []) :
    s.Moves (s.noteHandler config capturable) ∧
      (if config.hasHandler then
          (s.noteHandler config capturable).preScopeHandlerStream <|>
            (s.noteHandler config capturable).handlerStream
        else (s.noteHandler config capturable).handlerStream) = s.before.handlerStream ∧
      ∀ fd moved, s.StreamOk config moved fd →
        StreamOk config (s.noteHandler config capturable) moved fd := by
  have hback := h.back config
  have hunmoved : s.preScopeHandlerStream = none ∧ s.handlerStream = s.before.handlerStream := by
    simpa [HandlerOk] using h
  unfold noteHandler
  split
  · rename_i hmoves
    refine ⟨⟨rfl, rfl, rfl, rfl, rfl, rfl, rfl⟩, ?_, fun fd moved hstream => hstream⟩
    simp only [movesHandler, Bool.and_eq_true] at hmoves
    obtain ⟨x, hx⟩ := follows_isSome config hmoves.2
    rw [if_pos hmoves.1.1, ← hunmoved.2]
    simp only [hx]
    rfl
  · exact ⟨Moves.refl s, hback, fun fd moved hstream => hstream⟩

/-- **Moving the streams**: when nothing raises, all are where they belong; and wherever it raises,
the streams noted are the ones to put back. -/
theorem moveStreams_spec {s : Process} (capturable : List Std) (raisesAfter : Option ℕ)
    (hstreams : ∀ fd, s.StreamOk config [] fd) (hhandler : s.HandlerOk config []) :
    s.Moves (s.moveStreams config capturable raisesAfter) ∧
      (∀ fd, ((s.moveStreams config capturable raisesAfter).preScopeStreams fd <|>
          (s.moveStreams config capturable raisesAfter).streams fd) = s.before.streams fd) ∧
      (if config.hasHandler then
          (s.moveStreams config capturable raisesAfter).preScopeHandlerStream <|>
            (s.moveStreams config capturable raisesAfter).handlerStream
        else (s.moveStreams config capturable raisesAfter).handlerStream) =
          s.before.handlerStream ∧
      (raisesAfter = none →
        (∀ fd, StreamOk config (s.moveStreams config capturable raisesAfter) capturable fd) ∧
        HandlerOk config (s.moveStreams config capturable raisesAfter) capturable) := by
  obtain ⟨hout, houtOk, houtErr, houtHandler⟩ :=
    moveStream_spec config capturable (hstreams .out)
  obtain ⟨herr, herrOk, herrOut, herrHandler⟩ :=
    moveStream_spec config capturable (houtErr .err [] (by simp) (hstreams .err))
  have hmoved : ∀ fd, StreamOk config (moveStream config capturable .err
      (moveStream config capturable .out s)) capturable fd := by
    intro fd
    cases fd with
    | out => exact herrOut .out capturable (by simp) houtOk
    | err => exact herrOk
  have hhandler₁ := houtHandler hhandler
  have hhandler₂ := herrHandler hhandler₁
  -- With what the state after the moves says of itself, the streams noted are those from before.
  have hback : ∀ {t : Process}, s.Moves t → (∀ fd, ∃ moved, t.StreamOk config moved fd) →
      ∀ fd, (t.preScopeStreams fd <|> t.streams fd) = s.before.streams fd := by
    intro t hmoves hok fd
    obtain ⟨moved, hfd⟩ := hok fd
    rw [← hmoves.before]
    exact hfd.back config
  have hbackHandler : ∀ {t : Process}, s.Moves t → (∃ moved, t.HandlerOk config moved) →
      (if config.hasHandler then t.preScopeHandlerStream <|> t.handlerStream
        else t.handlerStream) = s.before.handlerStream := by
    rintro t hmoves ⟨moved, hok⟩
    rw [← hmoves.before]
    exact hok.back config
  have hboth := hout.trans herr
  unfold moveStreams
  simp only
  split
  · exact ⟨Moves.refl s, hback (Moves.refl s) fun fd => ⟨[], hstreams fd⟩,
      hbackHandler (Moves.refl s) ⟨[], hhandler⟩, by simp⟩
  · refine ⟨hout, hback hout fun fd => ?_, hbackHandler hout ⟨[], hhandler₁⟩, by simp⟩
    cases fd with
    | out => exact ⟨capturable, houtOk⟩
    | err => exact ⟨[], houtErr .err [] (by simp) (hstreams .err)⟩
  · exact ⟨hboth, hback hboth fun fd => ⟨capturable, hmoved fd⟩,
      hbackHandler hboth ⟨[], hhandler₂⟩, by simp⟩
  · obtain ⟨hnote, hnoted, hstreamsOk⟩ := noteHandler_spec config capturable hhandler₂
    have hall := hboth.trans hnote
    refine ⟨hall, hback hall fun fd => ⟨capturable, hstreamsOk fd capturable (hmoved fd)⟩, ?_,
      by simp⟩
    rw [← hboth.before]
    exact hnoted
  · obtain ⟨hmoves, hok, hstreamsOk⟩ := moveHandler_spec config capturable hhandler₂
    have hall := hboth.trans hmoves
    have hstreams' := fun fd => hstreamsOk fd capturable (hmoved fd)
    exact ⟨hall, hback hall fun fd => ⟨capturable, hstreams' fd⟩,
      hbackHandler hall ⟨capturable, hok⟩, fun _ => ⟨hstreams', hok⟩⟩

/-- What holds while the descriptors are pointed at the capture file. -/
structure Rebinding (s : Process) (rebound todo : List Std) : Prop where
  slots : s.Slots config
  untouched : ∀ fd, fd ∉ rebound → s.table fd.number = s.before.fds fd
  saved : ∀ fd ∈ rebound ++ todo, s.Saved fd
  captured : ∀ fd ∈ rebound, s.PointsAtSink config fd
  streams : ∀ fd, s.StreamOk config (rebound ++ todo) fd
  handler : s.HandlerOk config (rebound ++ todo)

/-- One descriptor is pointed at the capture file. -/
theorem Rebinding.next {s : Process} {rebound todo : List Std} {fd : Std}
    (h : s.Rebinding config rebound (fd :: todo)) {descriptor : Descriptor}
    (hbefore : s.before.fds fd = some descriptor) :
    Rebinding config { s with
      table := Function.update s.table fd.number
        (some ⟨config.sinkFile, descriptor.inheritable⟩) } (rebound ++ [fd]) todo := by
  have hfd := fd.number_le
  have hrestores : s.Restores { s with
      table := Function.update s.table fd.number
        (some ⟨config.sinkFile, descriptor.inheritable⟩) } :=
    ⟨rfl, fun n hn => Function.update_of_ne (by omega) _ _, rfl, rfl, rfl, rfl, rfl, rfl, rfl⟩
  have hlist : rebound ++ [fd] ++ todo = rebound ++ fd :: todo := by simp
  refine ⟨hrestores.slots config h.slots, fun fd' hfd' => ?_, fun fd' hfd' => ?_,
    fun fd' hfd' => ?_, fun fd' => ?_, ?_⟩
  · simp only [List.mem_append, List.mem_singleton, not_or] at hfd'
    rw [← h.untouched fd' hfd'.1]
    exact Function.update_of_ne (fun heq => hfd'.2 (Std.number_inj heq)) _ _
  · exact hrestores.saved config h.slots (h.saved fd' (hlist ▸ hfd'))
  · -- The descriptor just rebound, or one from before.
    by_cases heq : fd' = fd
    · subst heq
      exact ⟨descriptor, hbefore, Function.update_self _ _ _⟩
    · have hold : fd' ∈ rebound := by simpa [heq] using hfd'
      obtain ⟨d, hd, htable⟩ := h.captured fd' hold
      refine ⟨d, hd, ?_⟩
      rw [← htable]
      exact Function.update_of_ne (fun hnumber => heq (Std.number_inj hnumber)) _ _
  · rw [hlist]
    exact h.streams fd'
  · rw [hlist]
    exact h.handler

theorem rebind_spec (answers : Answers) {sink : ℕ} {todo rebound : List Std} {s : Process}
    (h : s.Rebinding config rebound todo) (hsink : s.slot .sink = some sink) :
    Scope config (s.rebind config answers sink todo rebound) ∧
      (s.rebind config answers sink todo rebound).before = s.before ∧
      (s.rebind config answers sink todo rebound).depth = s.depth ∧
      ∀ fd, answers.undo fd = true →
        (s.rebind config answers sink todo rebound).lost fd = s.lost fd := by
  induction todo generalizing rebound s with
  | nil =>
    refine ⟨⟨?_, fun fd hfd _ => h.untouched fd hfd, fun fd hfd => ?_, h.captured, fun fd => ?_,
      ?_⟩, rfl, rfl, fun _ _ => rfl⟩
    · exact h.slots.of_kept config rfl fun _ _ _ => rfl
    · exact h.saved fd (List.mem_append_left _ hfd)
    · have hstream := h.streams fd
      rw [List.append_nil] at hstream
      exact hstream
    · have hhandler := h.handler
      rw [List.append_nil] at hhandler
      exact hhandler
  | cons fd todo ih =>
    obtain ⟨d, raw, stream, hd, _, _, _, _, hinheritable⟩ := h.saved fd (by simp)
    rw [rebind, hinheritable]
    simp only
    split
    · rename_i table hdup
      obtain ⟨copied, hcopied, rfl⟩ := dup2_eq_some hdup
      rw [h.slots.sink sink hsink] at hcopied
      obtain rfl := Option.some.inj hcopied
      exact ih (h.next config hd) hsink
    · -- The undo: what was pointed at the capture file so far is put back, and so are the streams.
      have hundoable : Undoable config { s with active := rebound } :=
        ⟨h.slots.of_kept config rfl fun _ _ _ => rfl, fun fd hfd _ => h.untouched fd hfd,
          fun fd hfd => h.saved fd (List.mem_append_left _ hfd),
          fun fd => (h.streams fd).back config, h.handler.back config⟩
      obtain ⟨hrestored, hbefore, hdepth, hlost⟩ := hundoable.endScope config answers.undo
      exact ⟨hrestored.scope config, hbefore, hdepth, hlost⟩

/-- The streams of a restored process are all in place. -/
theorem Restored.streamOk {s : Process} (h : s.Restored config) (fd : Std) :
    s.StreamOk config [] fd := by
  rw [StreamOk, if_neg (by simp)]
  exact ⟨h.preScopeStreams fd, congrFun h.streams fd⟩

theorem Restored.handlerOk {s : Process} (h : s.Restored config) : s.HandlerOk config [] := by
  rw [HandlerOk, if_neg (by simp)]
  exact ⟨h.preScopeHandlerStream, h.handlerStream⟩

/-- What a begin comes to: a state with the same past, in which nothing is lost whose undo
succeeds. -/
structure Begun (answers : Answers) (s t : Process) : Prop where
  scope : t.Scope config
  before : t.before = s.before
  depth : t.depth = s.depth
  lost : ∀ fd, answers.undo fd = true → t.lost fd = false

/-- From the streams on: the descriptors that could be saved are captured, or all is put back. -/
theorem moveStreams_rebind_spec (answers : Answers) {s : Process} (h : s.Restored config)
    (hlost : ∀ fd, s.lost fd = false) {sink : ℕ} (hsink : s.slot .sink = some sink)
    {capturable : List Std} (hsaved : ∀ fd ∈ capturable, s.Saved fd) :
    (answers.raisesAfter = none → s.Begun config answers
      ((s.moveStreams config capturable answers.raisesAfter).rebind config answers sink
        capturable [])) ∧
    s.Begun config answers
      ((s.moveStreams config capturable answers.raisesAfter).endScope config answers.undo) ∧
    Restored config
      ((s.moveStreams config capturable answers.raisesAfter).endScope config answers.undo) := by
  obtain ⟨hmoves, hstreams, hhandler, hok⟩ :=
    moveStreams_spec config capturable answers.raisesAfter h.streamOk h.handlerOk
  have hslots := hmoves.slots config h.slots
  -- Moving the streams leaves the descriptors alone.
  have hfds : ∀ fd, (s.moveStreams config capturable answers.raisesAfter).table (Std.number fd) =
      (s.moveStreams config capturable answers.raisesAfter).before.fds fd := by
    intro fd
    rw [hmoves.table, hmoves.before]
    exact h.fds fd (hlost fd)
  refine ⟨fun hnone => ?_, ?_⟩
  · -- Every stream was moved, so the descriptors are rebound from here.
    obtain ⟨hstreamOk, hhandlerOk⟩ := hok hnone
    have hrebinding : Rebinding config (s.moveStreams config capturable answers.raisesAfter) []
        capturable :=
      ⟨hslots, fun fd _ => hfds fd, fun fd hfd => hmoves.saved (hsaved fd hfd), by simp, hstreamOk,
        hhandlerOk⟩
    obtain ⟨hscope, hbefore, hdepth, hundo⟩ :=
      rebind_spec config answers hrebinding (hmoves.slot ▸ hsink)
    refine ⟨hscope, hbefore.trans hmoves.before, hdepth.trans hmoves.depth, fun fd hfd => ?_⟩
    rw [hundo fd hfd, hmoves.lost, hlost]
  · -- Moving them raised: the scope ends with no descriptor rebound.
    have hactive : (s.moveStreams config capturable answers.raisesAfter).active = [] :=
      hmoves.active.trans h.active
    have hundoable : Undoable config (s.moveStreams config capturable answers.raisesAfter) := by
      refine ⟨hslots, fun fd _ _ => hfds fd, fun fd hfd => ?_, fun fd => ?_, ?_⟩
      · simp [hactive] at hfd
      · rw [hmoves.before]
        exact hstreams fd
      · rw [hmoves.before]
        exact hhandler
    obtain ⟨hrestored, hbefore, hdepth, hundo⟩ := hundoable.endScope config answers.undo
    refine ⟨⟨hrestored.scope config, hbefore.trans hmoves.before, hdepth.trans hmoves.depth,
      fun fd hfd => ?_⟩, hrestored⟩
    rw [hundo fd hfd, hmoves.lost, hlost]

/-- **`_begin`**: some descriptors are captured with their streams, or nothing has changed. -/
theorem begin_spec (answers : Answers) {s : Process} (h : s.Restored config)
    (hlost : ∀ fd, s.lost fd = false) :
    s.Begun config answers (s.begin config answers).1 ∧
      ((s.begin config answers).2 = true → Restored config (s.begin config answers).1) := by
  have hcleared : Restored config { s with active := [], activeInheritable := fun _ => none } :=
    ⟨h.slots.of_kept config rfl fun _ _ _ => rfl, rfl, h.fds, h.streams, h.handlerStream,
      h.preScopeStreams, h.preScopeHandlerStream⟩
  obtain ⟨hslots₂, hquiet₂⟩ := ensureSink_spec config hcleared.slots answers.sink
  have hrestored₂ := hcleared.quiet config hslots₂ hquiet₂
  unfold begin
  simp only
  split
  · exact ⟨⟨hrestored₂.scope config, hquiet₂.before, hquiet₂.depth,
      fun fd _ => (congrFun hquiet₂.lost fd).trans (hlost fd)⟩, by simp⟩
  rename_i sink hsink
  -- Reserving the slots is not seen by the host.
  have hreserve := @collect_spec (reserve config answers.slots)
    (fun t => Slots config t ∧ Quiet _ t)
    (fun fd t ht => by
      obtain ⟨hslots, hquiet⟩ := reserve_spec config ht.1 answers.slots fd
      exact ⟨hslots, ht.2.trans hquiet⟩)
    [.out, .err] _ ⟨hslots₂, Quiet.refl _⟩
  obtain ⟨hslots₃, hquiet₃⟩ := hreserve
  have hrestored₃ := hrestored₂.quiet config hslots₃ hquiet₃
  have hbefore₃ := hquiet₃.before.trans hquiet₂.before
  have hdepth₃ := hquiet₃.depth.trans hquiet₂.depth
  have hlost₃ : ∀ fd, _ = false := fun fd =>
    (congrFun (hquiet₃.lost.trans hquiet₂.lost) fd).trans (hlost fd)
  have hsublist := collect_sublist (reserve config answers.slots) [.out, .err]
    (ensureSink config answers.sink { s with active := [], activeInheritable := fun _ => none })
  split
  · exact ⟨⟨hrestored₃.scope config, hbefore₃, hdepth₃, fun fd _ => hlost₃ fd⟩, by simp⟩
  split
  · exact ⟨⟨hrestored₃.scope config, hbefore₃, hdepth₃, fun fd _ => hlost₃ fd⟩,
      fun _ => hrestored₃⟩
  obtain ⟨hslots₄, hquiet₄, hsaved₄, _⟩ := collect_refresh_spec config hslots₃ answers
    (fun fd => hrestored₃.fds fd (hlost₃ fd)) (hsublist.nodup (by simp))
  have hrestored₄ := hrestored₃.quiet config hslots₄ hquiet₄
  have hlost₄ := fun fd => (congrFun hquiet₄.lost fd).trans (hlost₃ fd)
  have hsink₃ := hquiet₃.sink (by simp [hsink])
  have hsink₄ := (hquiet₄.sink (by simp [hsink₃, hsink])).trans (hsink₃.trans hsink)
  -- What was noted in an earlier scope is gone already.
  have hnoted : Restored config
      { (collect (refresh answers) (collect (reserve config answers.slots) [.out, .err]
          (ensureSink config answers.sink
            { s with active := [], activeInheritable := fun _ => none })).2
          (collect (reserve config answers.slots) [.out, .err] (ensureSink config answers.sink
            { s with active := [], activeInheritable := fun _ => none })).1).1 with
        preScopeStreams := fun _ => none
        preScopeHandlerStream := none } :=
    ⟨hslots₄.of_kept config rfl fun _ _ _ => rfl, hrestored₄.active, hrestored₄.fds,
      hrestored₄.streams, hrestored₄.handlerStream, fun _ => rfl, rfl⟩
  obtain ⟨hrebound, hundone, hundoneRestored⟩ := moveStreams_rebind_spec config answers hnoted
    hlost₄ hsink₄ (fun fd hfd => hsaved₄ fd hfd)
  have hbefore₄ := hquiet₄.before.trans hbefore₃
  have hdepth₄ := hquiet₄.depth.trans hdepth₃
  split
  · exact ⟨⟨hundone.scope, hundone.before.trans hbefore₄, hundone.depth.trans hdepth₄,
      hundone.lost⟩, fun _ => hundoneRestored⟩
  · rename_i hraises
    have hbegun := hrebound (by simpa using hraises)
    exact ⟨⟨hbegun.scope, hbegun.before.trans hbefore₄, hbegun.depth.trans hdepth₄, hbegun.lost⟩,
      by simp⟩

/-! ### Runs -/

/-- What holds between two steps. -/
structure Inv (s : Process) : Prop where
  scope : s.Scope config
  idle : s.depth = 0 → s.Restored config

theorem fresh_inv (table : Table) (streams : Std → Option Stream)
    (handlerStream : Option Stream) : Inv config (fresh table streams handlerStream) := by
  have hrestored : Restored config (fresh table streams handlerStream) :=
    ⟨⟨by simp [fresh], by simp [fresh], by simp [fresh]⟩, rfl, fun _ _ => rfl, rfl, rfl,
      fun _ => rfl, rfl⟩
  exact ⟨hrestored.scope config, fun _ => hrestored⟩

/-- The depth alone says nothing about the descriptors. -/
theorem Scope.withDepth {s : Process} (h : s.Scope config) (depth : ℕ) :
    Scope config { s with depth := depth } :=
  ⟨h.slots.of_kept config rfl fun _ _ _ => rfl, h.untouched, h.saved, h.captured, h.streams,
    h.handler⟩

/-- A scope is entered first: what is put back later is what is there now. -/
theorem Inv.enter_idle {s : Process} (h : s.Inv config) (hdepth : s.depth = 0)
    (answers : Answers) :
    Inv config (s.enter config answers) ∧ (s.enter config answers).before = s.snapshot ∧
      ∀ fd, answers.undo fd = true → (s.enter config answers).lost fd = false := by
  have hidle := h.idle hdepth
  have hstart : Restored config { s with before := s.snapshot, lost := fun _ => false } :=
    ⟨hidle.slots.of_kept config rfl fun _ _ _ => rfl, hidle.active, fun _ _ => rfl, rfl, rfl,
      hidle.preScopeStreams, hidle.preScopeHandlerStream⟩
  obtain ⟨hbegun, hraised⟩ := begin_spec config answers hstart fun _ => rfl
  unfold enter
  rw [if_pos hdepth]
  split
  · rename_i s' hbegin
    rw [hbegin] at hbegun hraised
    exact ⟨⟨hbegun.scope, fun _ => hraised rfl⟩, hbegun.before, hbegun.lost⟩
  · rename_i s' hbegin
    rw [hbegin] at hbegun
    refine ⟨⟨hbegun.scope.withDepth config 1, fun hzero => ?_⟩, hbegun.before, hbegun.lost⟩
    cases hzero

theorem Inv.enter {s : Process} (h : s.Inv config) (answers : Answers) :
    Inv config (s.enter config answers) := by
  by_cases hdepth : s.depth = 0
  · exact (h.enter_idle config hdepth answers).1
  · rw [Process.enter, if_neg hdepth]
    refine ⟨h.scope.withDepth config _, fun hzero => ?_⟩
    simp at hzero

/-- **The last scope is left**: a descriptor is put back if its `dup2` succeeds and it was not lost
before, and the streams are put back in any case. -/
theorem Inv.exit_last {s : Process} (h : s.Inv config) (hdepth : s.depth = 1)
    (succeeds : Std → Bool) :
    ∃ s', s.exit config succeeds = some s' ∧ s'.depth = 0 ∧ Restored config s' ∧
      s'.before = s.before ∧ ∀ fd, succeeds fd = true → s'.lost fd = s.lost fd := by
  obtain ⟨hrestored, hbefore, _, hlost⟩ := (h.scope.undoable config).endScope config succeeds
  refine ⟨{ s.endScope config succeeds with depth := 0 }, ?_, rfl, ?_, hbefore, hlost⟩
  · simp only [Process.exit, hdepth]
  · exact ⟨hrestored.slots.of_kept config rfl fun _ _ _ => rfl, hrestored.active, hrestored.fds,
      hrestored.streams, hrestored.handlerStream, hrestored.preScopeStreams,
      hrestored.preScopeHandlerStream⟩

theorem Inv.exit {s s' : Process} (h : s.Inv config) {succeeds : Std → Bool}
    (hexit : s.exit config succeeds = some s') : Inv config s' := by
  match hdepth : s.depth with
  | 0 => simp [Process.exit, hdepth] at hexit
  | 1 =>
    obtain ⟨s'', hexit', _, hrestored, _⟩ := h.exit_last config hdepth succeeds
    obtain rfl := Option.some.inj (hexit.symm.trans hexit')
    exact ⟨hrestored.scope config, fun _ => hrestored⟩
  | depth + 2 =>
    simp only [Process.exit, hdepth, Option.some.injEq] at hexit
    subst hexit
    refine ⟨h.scope.withDepth config _, fun hzero => ?_⟩
    cases hzero

theorem keeps_of_slot {s : Process} {a : Slot} {n : ℕ} (h : s.slot a = some n) :
    s.keeps n = true := by
  unfold keeps
  rw [List.any_eq_true]
  refine ⟨a, ?_, by simpa using h⟩
  rcases a with _ | ⟨_ | _⟩ | ⟨_ | _⟩ <;> simp

theorem Inv.host {s s' : Process} (h : s.Inv config) {table : Table}
    {streams : Std → Option Stream} {handlerStream : Option Stream}
    (hhost : s.host table streams handlerStream = some s') : Inv config s' := by
  unfold Process.host at hhost
  split at hhost
  · rename_i hdepth
    have hidle := h.idle hdepth
    obtain rfl := Option.some.inj hhost
    suffices hrestored : Restored config _ from ⟨hrestored.scope config, fun _ => hrestored⟩
    exact ⟨hidle.slots.of_kept config rfl fun a n ha => if_pos (keeps_of_slot ha), hidle.active,
      fun _ _ => rfl, rfl, rfl, hidle.preScopeStreams, hidle.preScopeHandlerStream⟩
  · cases hhost

/-- Descriptors that are nothing to the module. -/
theorem Inv.others {s : Process} (h : s.Inv config) (table : Table) :
    Inv config (s.others table) := by
  have hkept : ∀ a n, s.slot a = some n → (s.others table).table n = s.table n :=
    fun a n ha => if_pos (.inr (keeps_of_slot ha))
  have hlow : ∀ fd : Std, (s.others table).table fd.number = s.table fd.number :=
    fun fd => if_pos (.inl fd.number_le)
  have hslots : Slots config (s.others table) := h.scope.slots.of_kept config rfl hkept
  refine ⟨⟨hslots, fun fd hfd hlost => ?_, fun fd hfd => ?_, fun fd hfd => ?_, h.scope.streams,
    h.scope.handler⟩, fun hdepth => ?_⟩
  · rw [hlow]
    exact h.scope.untouched fd hfd hlost
  · exact (h.scope.saved fd hfd).of_kept rfl hkept rfl rfl
  · obtain ⟨d, hd, htable⟩ := h.scope.captured fd hfd
    exact ⟨d, hd, (hlow fd).trans htable⟩
  · have hidle := h.idle hdepth
    exact ⟨hslots, hidle.active, fun fd hlost => (hlow fd).trans (hidle.fds fd hlost),
      hidle.streams, hidle.handlerStream, hidle.preScopeStreams, hidle.preScopeHandlerStream⟩

theorem Inv.step {s s' : Process} (h : s.Inv config) {event : Event}
    (hstep : s.step config event = some s') : Inv config s' := by
  cases event with
  | enter answers =>
    obtain rfl := Option.some.inj hstep
    exact h.enter config answers
  | exit succeeds => exact h.exit config hstep
  | host table streams handlerStream => exact h.host config hstep
  | others table =>
    obtain rfl := Option.some.inj hstep
    exact h.others config table

theorem Inv.run {s s' : Process} (h : s.Inv config) {events : List Event}
    (hrun : s.run config events = some s') : Inv config s' := by
  induction events generalizing s with
  | nil => exact Option.some.inj hrun ▸ h
  | cons event events ih =>
    obtain ⟨t, hstep, hrest⟩ := Option.bind_eq_some_iff.mp hrun
    exact ih (h.step config hstep) hrest

/-! ### What the host sees -/

/-- A descriptor is as before, and so are the streams that write through it. -/
structure Untouched (s : Process) (fd : Std) : Prop where
  table : s.table fd.number = s.before.fds fd
  streams : ∀ fd', s.follows config (s.before.streams fd') fd = true →
    s.streams fd' = s.before.streams fd'
  handlerStream : s.follows config s.before.handlerStream fd = true →
    s.handlerStream = s.before.handlerStream

/-- A descriptor points at the capture file, and its streams write to a copy of what it was. -/
structure Captured (s : Process) (fd : Std) : Prop where
  table : s.PointsAtSink config fd
  copy : ∃ descriptor n, s.before.fds fd = some descriptor ∧ s.slot (.stream fd) = some n ∧
    2 < n ∧ s.table n = some ⟨descriptor.file, false⟩
  streams : s.follows config (s.before.streams fd) fd = true → s.streams fd = some (.saved fd)
  handlerStream : fd = .err → config.hasHandler = true →
    s.follows config s.before.handlerStream .err = true → s.handlerStream = some (.saved .err)

/-- Nothing writes through two descriptors. -/
theorem follows_inj {s : Process} {stream : Option Stream} {fd fd' : Std}
    (h : s.follows config stream fd = true) (h' : s.follows config stream fd' = true) :
    fd = fd' := by
  rcases stream with _ | object | saved
  · cases h
  all_goals
    simp only [follows, decide_eq_true_eq] at h h'
    exact Std.number_inj (Option.some.inj (h.symm.trans h'))

theorem Scope.untouched_of_not_mem {s : Process} (h : s.Scope config) {fd : Std}
    (hfd : fd ∉ s.active) (hlost : s.lost fd = false) : s.Untouched config fd where
  table := h.untouched fd hfd hlost
  streams fd' hfollows := by
    have hstream := h.streams fd'
    rw [StreamOk, if_neg] at hstream
    · exact hstream.2
    · -- A stream is moved with its own descriptor only.
      rintro ⟨hmem, hfollows'⟩
      exact hfd (follows_inj config hfollows hfollows' ▸ hmem)
  handlerStream hfollows := by
    have hhandler := h.handler
    rw [HandlerOk, if_neg] at hhandler
    · exact hhandler.2
    · rintro ⟨_, hmem, hfollows'⟩
      exact hfd (follows_inj config hfollows hfollows' ▸ hmem)

theorem Scope.captured_of_mem {s : Process} (h : s.Scope config) {fd : Std}
    (hfd : fd ∈ s.active) : s.Captured config fd where
  table := h.captured fd hfd
  copy := by
    obtain ⟨descriptor, _, n, hbefore, _, _, hn, htable, _⟩ := h.saved fd hfd
    exact ⟨descriptor, n, hbefore, hn, (h.slots.above _ n hn).1, htable⟩
  streams hfollows := by
    have hstream := h.streams fd
    rw [StreamOk, if_pos ⟨hfd, hfollows⟩] at hstream
    exact hstream.2
  handlerStream herr hhas hfollows := by
    have hhandler := h.handler
    rw [HandlerOk, if_pos ⟨hhas, herr ▸ hfd, hfollows⟩] at hhandler
    exact hhandler.2

/-- Inside the scopes, what is to be put back stays the same, and nothing is lost. -/
theorem step_keeps {s s' : Process} {event : Event} (hdepth : s.depth ≠ 0) (h : s.Inv config)
    (hstep : s.step config event = some s') :
    s'.before = s.before ∧ (s'.depth ≠ 0 → s'.lost = s.lost) := by
  cases event with
  | enter answers =>
    obtain rfl := Option.some.inj hstep
    rw [enter, if_neg hdepth]
    exact ⟨rfl, fun _ => rfl⟩
  | exit succeeds =>
    by_cases hone : s.depth = 1
    · obtain ⟨s'', hexit, hzero, _, hbefore, _⟩ := h.exit_last config hone succeeds
      obtain rfl := Option.some.inj (Eq.trans (Eq.symm hstep) hexit)
      exact ⟨hbefore, fun hne => absurd hzero hne⟩
    · match hmore : s.depth, hdepth, hone with
      | depth + 2, _, _ =>
        simp only [step, exit, hmore, Option.some.injEq] at hstep
        rw [← hstep]
        exact ⟨rfl, fun _ => rfl⟩
  | host table streams handlerStream =>
    simp [step, host, hdepth] at hstep
  | others table =>
    obtain rfl := Option.some.inj hstep
    exact ⟨rfl, fun _ => rfl⟩

end Process

/-- **Native output capture.**  Between two steps a descriptor that is not lost is untouched or
captured, together with its streams.  What a scope that is entered first has to put back is what
is there then, and only an undo that fails loses a descriptor; both stay so up to the exit of
the last scope.  That exit puts the streams back, and every descriptor that is not lost and whose
`dup2` succeeds. -/
theorem capture_restores (table : Table) (streams : Std → Option Stream)
    (handlerStream : Option Stream) (events : List Event) (s : Process)
    (hrun : (Process.fresh table streams handlerStream).run config events = some s) :
    (∀ fd, s.lost fd = false → s.Untouched config fd ∨ s.Captured config fd) ∧
    (s.depth = 0 → ∀ answers, (s.enter config answers).before = s.snapshot ∧
      ∀ fd, answers.undo fd = true → (s.enter config answers).lost fd = false) ∧
    (s.depth ≠ 0 → ∀ event s', s.step config event = some s' →
      s'.before = s.before ∧ (s'.depth ≠ 0 → s'.lost = s.lost)) ∧
    (s.depth = 1 → ∀ succeeds, ∃ s', s.step config (.exit succeeds) = some s' ∧ s'.depth = 0 ∧
      s'.streams = s.before.streams ∧ s'.handlerStream = s.before.handlerStream ∧
      ∀ fd, s.lost fd = false → succeeds fd = true →
        s'.table fd.number = s.before.fds fd) := by
  have hinv := (Process.fresh_inv config table streams handlerStream).run config hrun
  refine ⟨fun fd hlost => ?_, fun hdepth answers => (hinv.enter_idle config hdepth answers).2,
    fun hdepth event s' hstep => Process.step_keeps config hdepth hinv hstep,
    fun hdepth succeeds => ?_⟩
  · -- A descriptor is captured exactly while it is active.
    by_cases hfd : fd ∈ s.active
    · exact .inr (hinv.scope.captured_of_mem config hfd)
    · exact .inl (hinv.scope.untouched_of_not_mem config hfd hlost)
  · obtain ⟨s', hexit, hzero, hrestored, hbefore, hlost⟩ := hinv.exit_last config hdepth succeeds
    refine ⟨s', hexit, hzero, ?_, ?_, fun fd hfd hsucceeds => ?_⟩
    · rw [hrestored.streams, hbefore]
    · rw [hrestored.handlerStream, hbefore]
    · rw [hrestored.fds fd ((hlost fd hsucceeds).trans hfd), hbefore]

/-- A host with a terminal on 0, 1 and 2; the capture file is file 9. -/
def terminalConfig : Config where
  fileno object := if object = 1 ∨ object = 2 then some object else none
  original fd := some (.host fd.number)
  hasHandler := true
  sinkFile := 9

def terminalTable : Table := fun n => if n ≤ 2 then some ⟨n, true⟩ else none

/-- The calls of a begin that all succeed but, perhaps, for those that point the descriptors at the
capture file and undo it. -/
def terminalAnswers (rebind undo : Std → Bool) : Answers where
  sink := some [some 3]
  slots fd := ⟨[some (2 * fd.number + 2)], [some (2 * fd.number + 3)], true⟩
  interrupted := false
  refreshRaw _ := true
  refreshStream _ := true
  raisesAfter := none
  rebind := rebind
  undo := undo

/-- Two scopes, one inside the other: descriptor 1 is captured up to the second exit. -/
theorem nested_scopes_restore :
    ∃ s s', (Process.fresh terminalTable (fun fd => some (.host fd.number)) (some (.host 2))).run
        terminalConfig [.enter (terminalAnswers (fun _ => true) fun _ => true),
          .enter (terminalAnswers (fun _ => true) fun _ => true), .exit fun _ => true] = some s ∧
      s.table 1 = some ⟨9, true⟩ ∧ s.streams .out = some (.saved .out) ∧
      s.handlerStream = some (.saved .err) ∧
      s.step terminalConfig (.exit fun _ => true) = some s' ∧ s'.table 1 = some ⟨1, true⟩ ∧
      s'.streams .out = some (.host 1) ∧ s'.handlerStream = some (.host 2) := by
  obtain ⟨_, _, _, hexit⟩ := capture_restores terminalConfig terminalTable
    (fun fd => some (.host fd.number)) (some (.host 2))
    [.enter (terminalAnswers (fun _ => true) fun _ => true),
      .enter (terminalAnswers (fun _ => true) fun _ => true), .exit fun _ => true] _ rfl
  obtain ⟨s', hstep, _, hstreams, hhandler, hfds⟩ := hexit rfl fun _ => true
  refine ⟨_, s', rfl, rfl, rfl, rfl, hstep, hfds .out rfl rfl, ?_, hhandler⟩
  exact congrFun hstreams .out

/-- Descriptor 2 cannot be pointed at the capture file, nor can 1 be put back: it stays captured,
although at the exit there is nothing to put back.  And an error stream that writes through
descriptor 1 writes to the capture file inside the scope. -/
theorem failed_undo_and_crossed_stream :
    (∃ s s', (Process.fresh terminalTable (fun fd => some (.host fd.number)) (some (.host 2))).run
        terminalConfig [.enter (terminalAnswers (fun fd => fd = .out) fun _ => false)] = some s ∧
      s.active = [] ∧ s.step terminalConfig (.exit fun _ => true) = some s' ∧ s'.depth = 0 ∧
      s'.before.fds .out = some ⟨1, true⟩ ∧ s'.table 1 = some ⟨9, true⟩) ∧
    ∃ s, (Process.fresh terminalTable (fun _ => some (.host 1)) (some (.host 2))).run
        terminalConfig [.enter (terminalAnswers (fun _ => true) fun _ => true)] = some s ∧
      s.before.streams .err = some (.host 1) ∧
      s.follows terminalConfig (some (.host 1)) .out = true ∧ s.table 1 = some ⟨9, true⟩ ∧
      s.streams .err = some (.host 1) :=
  ⟨⟨_, _, rfl, rfl, rfl, rfl, rfl, rfl⟩, _, rfl, rfl, rfl, rfl, rfl⟩

end NativeCapture
