/-
The tunable parameters of a retargeter.

A parameter has a validity check, a default value, a reader of JSON values and perhaps a sync
function.  Values come from the defaults, from a config file at construction, from `set` and
from files loaded later; the sync functions get them at construction and in `sync_all`.

* `ParameterSpec`, `ParameterState` — the data;
* `assignAll` — the loop of `set` and of `load_from_file`;
* `updates_atomic_iff` — when a failed update leaves every value as it was;
* `synced_valid` — every run whose files hold valid values.
-/
import IsaacTeleop.OrderedDict
import IsaacTeleop.PythonJson
import IsaacTeleop.StateExcept

namespace Parameters

variable {κ V J : Type}

/-! ### The model -/

inductive ParameterError (κ : Type)
  | keyError (name : κ)
  | valueError (name : κ)
  /-- `ParameterState requires at least one parameter` -/
  | noParameters
  /-- Raised by a check, a reader or a sync function. -/
  | raised
  deriving DecidableEq, Repr

/-- `ParameterSpec`, for values `V` and JSON values `J`. -/
structure ParameterSpec (κ V J : Type) where
  name : κ
  validate : V → Except (ParameterError κ) Bool
  getDefaultValue : V
  deserialize : J → Except (ParameterError κ) V
  syncFn : Option (V → Except (ParameterError κ) Unit)

def ParameterSpec.Valid (spec : ParameterSpec κ V J) (value : V) : Prop :=
  spec.validate value = .ok true

/-- A config file. -/
inductive Config (κ J : Type)
  /-- There is none, or it cannot be read as JSON. -/
  | missing
  | object (members : OrderedDict κ J)
  /-- A list or a string: a name can be looked for in it, but has no entry. -/
  | sequence
  /-- A number, a truth value or `null`. -/
  | scalar

structure ParameterState (κ V J : Type) where
  parameters : OrderedDict κ (ParameterSpec κ V J)
  values : OrderedDict κ V
  /-- What the sync functions were called with. -/
  synced : List (ParameterSpec κ V J × V)

abbrev ParameterM (κ V J α : Type) : Type := Fallible (ParameterState κ V J) (ParameterError κ) α

/-- Call `sync_fn` with the value. -/
def sync (spec : ParameterSpec κ V J) (value : V) : ParameterM κ V J Unit :=
  match spec.syncFn with
  | none => pure ()
  | some syncFn => do
    Fallible.modify fun s => { s with synced := s.synced ++ [(spec, value)] }
    Fallible.lift (syncFn value)

variable [DecidableEq κ]

/-- The value of a parameter that is being registered. -/
def initialValue (config : Config κ J) (spec : ParameterSpec κ V J) :
    Except (ParameterError κ) V :=
  match config with
  | .missing => .ok spec.getDefaultValue
  | .sequence => .ok spec.getDefaultValue
  | .scalar => .error .raised
  | .object members =>
    match members.get? spec.name with
    | none => .ok spec.getDefaultValue
    | some value =>
      match spec.deserialize value with
      | .ok value => .ok value
      | .error _ => .ok spec.getDefaultValue

def registerParameter (config : Config κ J) (spec : ParameterSpec κ V J) :
    ParameterM κ V J Unit := do
  Fallible.modify fun s => { s with parameters := s.parameters.insert spec.name spec }
  let value ← Fallible.lift (initialValue config spec)
  Fallible.modify fun s => { s with values := s.values.insert spec.name value }
  sync spec value

def registerAll (config : Config κ J) : List (ParameterSpec κ V J) → ParameterM κ V J Unit
  | [] => pure ()
  | spec :: rest => do
    registerParameter config spec
    registerAll config rest

def ParameterState.empty : ParameterState κ V J := ⟨∅, ∅, []⟩

/-- `__init__` -/
def construct (config : Config κ J) (parameters : List (ParameterSpec κ V J)) :
    ParameterM κ V J Unit :=
  if parameters.isEmpty then Fallible.raise .noParameters else registerAll config parameters

def syncEntries : List (κ × ParameterSpec κ V J) → ParameterM κ V J Unit
  | [] => pure ()
  | (name, spec) :: rest => do
    match spec.syncFn with
    | none => syncEntries rest
    | some _ => do
      let s ← Fallible.read
      match s.values.get? name with
      | none => Fallible.raise (.keyError name)
      | some value => do
        sync spec value
        syncEntries rest

def syncAll : ParameterM κ V J Unit := do
  let s ← Fallible.read
  syncEntries s.parameters.entries

/-- Assign what `decide` says about each entry: a value, nothing, or an exception that ends the
loop. -/
def assignAll {ι E : Type} (decide : κ → ι → Except E (Option V)) :
    List (κ × ι) → OrderedDict κ V → Except E Unit × OrderedDict κ V
  | [], values => (.ok (), values)
  | (name, item) :: rest, values =>
    match decide name item with
    | .error e => (.error e, values)
    | .ok none => assignAll decide rest values
    | .ok (some value) => assignAll decide rest (values.insert name value)

/-- The check of `set`. -/
def ParameterState.check (s : ParameterState κ V J) (name : κ) (value : V) :
    Except (ParameterError κ) (Option V) :=
  match s.parameters.get? name with
  | none => .error (.keyError name)
  | some spec =>
    match spec.validate value with
    | .error e => .error e
    | .ok false => .error (.valueError name)
    | .ok true => .ok (some value)

def set (updates : OrderedDict κ V) : ParameterM κ V J Unit := fun s =>
  let (result, values) := assignAll s.check updates.entries s.values
  (result, { s with values := values })

/-- What `load_from_file` reads for a name: other names are skipped. -/
def ParameterState.readEntry (s : ParameterState κ V J) (name : κ) (value : J) :
    Except (ParameterError κ) (Option V) :=
  match s.parameters.get? name with
  | none => .ok none
  | some spec => (spec.deserialize value).map some

/-- Whether the file was loaded. -/
def loadFromFile (file : Config κ J) : ParameterM κ V J Bool := fun s =>
  match file with
  | .object members =>
    let (result, values) := assignAll s.readEntry members.entries s.values
    (.ok result.toBool, { s with values := values })
  | _ => (.ok false, s)

def resetToDefaults : ParameterM κ V J Unit :=
  Fallible.modify fun s =>
    let values := s.parameters.entries.foldl
      (fun values entry => values.insert entry.1 entry.2.getDefaultValue) s.values
    { s with values := values }

/-! ### The loop -/

section Loop

variable {ι E : Type} {decide : κ → ι → Except E (Option V)}

/-- What the loop assigns to a name, if it comes to an end. -/
def assigned (decide : κ → ι → Except E (Option V)) (entries : List (κ × ι)) (name : κ) :
    Option V :=
  (entries.lookup name).bind fun item =>
    match decide name item with
    | .ok value => value
    | .error _ => none

def Decides (decide : κ → ι → Except E (Option V)) (entry : κ × ι) : Prop :=
  ∃ value, decide entry.1 entry.2 = .ok value

theorem assigned_of_mem {entries : List (κ × ι)} (hnodup : (entries.map Prod.fst).Nodup)
    {name : κ} {item : ι} {value : V} (hmem : (name, item) ∈ entries)
    (hvalue : decide name item = .ok (some value)) : assigned decide entries name = some value := by
  rw [assigned, OrderedDict.lookup_of_mem hnodup hmem, Option.bind_some, hvalue]

/-- **The loop up to a point:** whatever follows, it goes on from the values assigned. -/
theorem assignAll_append {before : List (κ × ι)} (after : List (κ × ι))
    (hbefore : ∀ entry ∈ before, Decides decide entry)
    (hnodup : (before.map Prod.fst).Nodup) (values : OrderedDict κ V) :
    ∃ values', assignAll decide (before ++ after) values = assignAll decide after values' ∧
      ∀ name, values'.get? name = (assigned decide before name).or (values.get? name) := by
  induction before generalizing values with
  | nil => exact ⟨values, rfl, fun name => rfl⟩
  | cons entry rest ih =>
    obtain ⟨name, item⟩ := entry
    obtain ⟨value, hvalue⟩ := hbefore (name, item) List.mem_cons_self
    rw [List.map_cons, List.nodup_cons] at hnodup
    have hrest : ∀ entry ∈ rest, Decides decide entry := fun entry hentry =>
      hbefore entry (List.mem_cons_of_mem _ hentry)
    -- The names are distinct, so no later entry assigns this one again.
    have hnone : rest.lookup name = none := by
      rw [Option.eq_none_iff_forall_not_mem]
      exact fun item' hitem' => hnodup.1 ((OrderedDict.mem_map_fst_iff rest name).mpr ⟨_, hitem'⟩)
    cases value with
    | none =>
      obtain ⟨values', happend, hget⟩ := ih hrest hnodup.2 values
      refine ⟨values', ?_, fun name' => ?_⟩
      · rw [← happend, List.cons_append, assignAll, hvalue]
      · rw [hget]
        by_cases hname : name' = name
        · subst hname
          rw [assigned, assigned, OrderedDict.lookup_cons_self, hnone, Option.bind_some, hvalue]
          rfl
        · rw [assigned, assigned, OrderedDict.lookup_cons_ne _ _ hname]
    | some value =>
      obtain ⟨values', happend, hget⟩ := ih hrest hnodup.2 (values.insert name value)
      refine ⟨values', ?_, fun name' => ?_⟩
      · rw [← happend, List.cons_append, assignAll, hvalue]
      · rw [hget, OrderedDict.get?_insert]
        by_cases hname : name' = name
        · subst hname
          rw [assigned, assigned, OrderedDict.lookup_cons_self, hnone, Option.bind_some, hvalue,
            if_pos rfl]
          rfl
        · rw [assigned, assigned, OrderedDict.lookup_cons_ne _ _ hname, if_neg hname]

omit [DecidableEq κ] in
/-- Every entry decides, or there is a first one that does not. -/
theorem decides_or_first (decide : κ → ι → Except E (Option V)) (entries : List (κ × ι)) :
    (∀ entry ∈ entries, Decides decide entry) ∨ ∃ before entry after,
      entries = before ++ entry :: after ∧ (∀ b ∈ before, Decides decide b) ∧
        ¬Decides decide entry := by
  induction entries with
  | nil => exact .inl nofun
  | cons entry rest ih =>
    by_cases hentry : Decides decide entry
    · rcases ih with hall | ⟨before, bad, after, rfl, hbefore, hbad⟩
      · exact .inl (List.forall_mem_cons.mpr ⟨hentry, hall⟩)
      · exact .inr ⟨entry :: before, bad, after, rfl, List.forall_mem_cons.mpr ⟨hentry, hbefore⟩,
          hbad⟩
    · exact .inr ⟨[], entry, rest, rfl, nofun, hentry⟩

theorem assignAll_error {before after : List (κ × ι)} {entry : κ × ι}
    (hnodup : ((before ++ entry :: after).map Prod.fst).Nodup)
    (hbefore : ∀ b ∈ before, Decides decide b) (hentry : ¬Decides decide entry)
    (values : OrderedDict κ V) :
    ∃ e values', assignAll decide (before ++ entry :: after) values = (.error e, values') ∧
      ∀ name, values'.get? name = (assigned decide before name).or (values.get? name) := by
  rw [List.map_append] at hnodup
  obtain ⟨values', happend, hget⟩ := assignAll_append (entry :: after) hbefore
    (List.Nodup.of_append_left hnodup) values
  cases hdecide : decide entry.1 entry.2 with
  | ok value => exact absurd ⟨value, hdecide⟩ hentry
  | error e =>
    refine ⟨e, values', ?_, hget⟩
    rw [happend, assignAll, hdecide]

/-- **A loop that comes to an end** assigned every name. -/
theorem assignAll_ok {entries : List (κ × ι)} (hnodup : (entries.map Prod.fst).Nodup)
    (hall : ∀ entry ∈ entries, Decides decide entry) (values : OrderedDict κ V) :
    ∃ values', assignAll decide entries values = (.ok (), values') ∧
      ∀ name, values'.get? name = (assigned decide entries name).or (values.get? name) := by
  obtain ⟨values', happend, hget⟩ := assignAll_append [] hall hnodup values
  rw [List.append_nil] at happend
  exact ⟨values', happend, hget⟩

/-- The entries before the first one that fails assign what is there already. -/
def Harmless (decide : κ → ι → Except E (Option V)) (entries : List (κ × ι))
    (values : OrderedDict κ V) : Prop :=
  ∀ before entry after, entries = before ++ entry :: after → (∀ b ∈ before, Decides decide b) →
    ¬Decides decide entry → ∀ name item value, (name, item) ∈ before →
      decide name item = .ok (some value) → values.get? name = some value

/-- **When a failed loop leaves the values as they were.** -/
theorem assignAll_atomic_iff {entries : List (κ × ι)} (hnodup : (entries.map Prod.fst).Nodup)
    (values : OrderedDict κ V) :
    (∀ e values', assignAll decide entries values = (.error e, values') →
      ∀ name, values'.get? name = values.get? name) ↔ Harmless decide entries values := by
  constructor
  · rintro hatomic before entry after rfl hbefore hentry name item value hmem hvalue
    obtain ⟨e, values', herror, hget⟩ := assignAll_error hnodup hbefore hentry values
    rw [List.map_append] at hnodup
    have hassigned := assigned_of_mem (List.Nodup.of_append_left hnodup) hmem hvalue
    rw [← hatomic e values' herror name, hget, hassigned, Option.some_or]
  · intro hharmless e values' herror name
    rcases decides_or_first decide entries with hall | ⟨before, entry, after, rfl, hbefore, hentry⟩
    · obtain ⟨values'', hok, -⟩ := assignAll_ok hnodup hall values
      rw [hok] at herror
      cases herror
    · obtain ⟨e', values'', herror', hget⟩ := assignAll_error hnodup hbefore hentry values
      rw [herror'] at herror
      cases herror
      rw [hget]
      -- Only a name of an earlier entry was assigned, and that to what it had.
      cases hassigned : assigned decide before name with
      | none => exact Option.none_or
      | some value =>
        obtain ⟨item, hlookup, hvalue⟩ := Option.bind_eq_some_iff.mp hassigned
        rw [List.map_append] at hnodup
        have hmem : (name, item) ∈ before :=
          OrderedDict.mem_of_get? (d := ⟨before, List.Nodup.of_append_left hnodup⟩) hlookup
        rw [Option.some_or, hharmless before entry after rfl hbefore hentry name item value hmem ?_]
        cases hdecide : decide name item with
        | error e => simp [hdecide] at hvalue
        | ok value' =>
          rw [hdecide] at hvalue
          exact congrArg Except.ok hvalue

end Loop

/-! ### Updates -/

/-- `set` either raises and leaves every value as it was, or changes exactly the named values. -/
structure SetAtomic (s : ParameterState κ V J) (updates : OrderedDict κ V) : Prop where
  raises : ∀ e s', set updates s = (.error e, s') →
    (∃ name value, updates.get? name = some value ∧ ∀ spec, s.parameters.get? name = some spec →
      ¬spec.Valid value) ∧ ∀ name, s'.values.get? name = s.values.get? name
  succeeds : ∀ s', set updates s = (.ok (), s') →
    ∀ name, s'.values.get? name = (updates.get? name).or (s.values.get? name)

/-- A load that returns `False` leaves every value as it was. -/
def LoadAtomic (s : ParameterState κ V J) (file : Config κ J) : Prop :=
  ∀ s', loadFromFile file s = (.ok false, s') → ∀ name, s'.values.get? name = s.values.get? name

/-- The entries that a load reads before one that cannot be read give their parameters the
values they have. -/
def LoadHarmless (s : ParameterState κ V J) : Config κ J → Prop
  | .object members => Harmless s.readEntry members.entries s.values
  | _ => True

theorem set_eq (s : ParameterState κ V J) (updates : OrderedDict κ V) :
    set updates s = ((assignAll s.check updates.entries s.values).1,
      { s with values := (assignAll s.check updates.entries s.values).2 }) := rfl

theorem ParameterState.check_ok_iff {s : ParameterState κ V J} {name : κ} {value : V}
    {result : Option V} : s.check name value = .ok result ↔
      result = some value ∧ ∃ spec, s.parameters.get? name = some spec ∧ spec.Valid value := by
  unfold ParameterState.check ParameterSpec.Valid
  cases s.parameters.get? name with
  | none => simp
  | some spec =>
    cases hvalidate : spec.validate value with
    | error e => simp [hvalidate]
    | ok valid =>
      cases valid with
      | false => simp [hvalidate]
      | true => simp [hvalidate, eq_comm]

/-- What a `set` that succeeds assigns. -/
theorem assigned_check {s : ParameterState κ V J} {updates : OrderedDict κ V}
    (hall : ∀ entry ∈ updates.entries, Decides s.check entry) (name : κ) :
    assigned s.check updates.entries name = updates.get? name := by
  unfold assigned
  cases hlookup : updates.get? name with
  | none =>
    have hnone : updates.entries.lookup name = none := hlookup
    rw [hnone]
    rfl
  | some value =>
    have hsome : updates.entries.lookup name = some value := hlookup
    obtain ⟨result, hresult⟩ := hall (name, value) (OrderedDict.mem_of_get? hlookup)
    have hcheck : s.check name value = .ok (some value) := by
      rw [hresult, (ParameterState.check_ok_iff.mp hresult).1]
    rw [hsome, Option.bind_some, hcheck]

/-- A `set` that raises met a name that is unknown or a value that is not valid. -/
theorem set_raises {s s' : ParameterState κ V J} {updates : OrderedDict κ V}
    {e : ParameterError κ} (h : set updates s = (.error e, s')) :
    ∃ name value, updates.get? name = some value ∧
      ∀ spec, s.parameters.get? name = some spec → ¬spec.Valid value := by
  rcases decides_or_first s.check updates.entries with hall | ⟨before, entry, after, hentries, _, hbad⟩
  · obtain ⟨values', hok, -⟩ := assignAll_ok updates.nodup hall s.values
    rw [set_eq, hok] at h
    cases h
  · refine ⟨entry.1, entry.2, OrderedDict.get?_of_mem ?_, fun spec hspec hvalid => hbad ?_⟩
    · rw [hentries]
      exact List.mem_append_right _ List.mem_cons_self
    · exact ⟨some entry.2, ParameterState.check_ok_iff.mpr ⟨rfl, spec, hspec, hvalid⟩⟩

theorem setAtomic_iff (s : ParameterState κ V J) (updates : OrderedDict κ V) :
    SetAtomic s updates ↔ Harmless s.check updates.entries s.values := by
  rw [← assignAll_atomic_iff updates.nodup]
  constructor
  · intro hatomic e values' herror
    refine (hatomic.raises e { s with values := values' } ?_).2
    rw [set_eq, herror]
  · intro hatomic
    refine ⟨fun e s' herror => ⟨set_raises herror, ?_⟩, fun s' hok => ?_⟩
    · rw [set_eq, Prod.mk.injEq] at herror
      obtain ⟨hresult, rfl⟩ := herror
      exact hatomic e _ (Prod.ext hresult rfl)
    · rcases decides_or_first s.check updates.entries with hall | ⟨before, entry, after, he, hb, hbad⟩
      · obtain ⟨values', hassign, hget⟩ := assignAll_ok updates.nodup hall s.values
        rw [set_eq, hassign] at hok
        cases hok
        intro name
        rw [hget, assigned_check hall]
      · have hnodup := updates.nodup
        rw [he] at hnodup
        obtain ⟨e, values', herror, -⟩ := assignAll_error hnodup hb hbad s.values
        rw [set_eq, he, herror] at hok
        cases hok

theorem loadAtomic_iff (s : ParameterState κ V J) (file : Config κ J) :
    LoadAtomic s file ↔ LoadHarmless s file := by
  cases file with
  | missing | sequence | scalar =>
    refine ⟨fun _ => trivial, fun _ s' h => ?_⟩
    cases h
    exact fun _ => rfl
  | object members =>
    show LoadAtomic s (.object members) ↔ Harmless s.readEntry members.entries s.values
    rw [← assignAll_atomic_iff members.nodup]
    -- A failed load answers false and keeps what was assigned before the failure.
    have hload : loadFromFile (.object members) s =
        (.ok (assignAll s.readEntry members.entries s.values).1.toBool,
          { s with values := (assignAll s.readEntry members.entries s.values).2 }) := rfl
    constructor
    · intro hatomic e values' herror
      refine hatomic { s with values := values' } ?_
      rw [hload, herror]
      rfl
    · intro hatomic s' hfalse
      rw [hload, Prod.mk.injEq] at hfalse
      obtain ⟨hresult, rfl⟩ := hfalse
      cases hassign : assignAll s.readEntry members.entries s.values with
      | mk result values' =>
        rw [hassign] at hresult
        cases result with
        | ok _ => cases hresult
        | error e => exact hatomic e values' hassign

/-- **When updates are atomic.**  A `set` and a load leave every value as it was when they fail,
exactly if the entries before the first bad one change nothing. -/
theorem updates_atomic_iff (s : ParameterState κ V J) (updates : OrderedDict κ V)
    (file : Config κ J) :
    (SetAtomic s updates ↔ Harmless s.check updates.entries s.values) ∧
      (LoadAtomic s file ↔ LoadHarmless s file) :=
  ⟨setAtomic_iff s updates, loadAtomic_iff s file⟩

/-! ### Integer parameters -/

/-- What CPython computes with floats and texts; `none` where it raises. -/
class Numbers (φ : Type) where
  /-- `int` of a float -/
  truncate : φ → Option ℤ
  /-- `int` of a text -/
  parseInt : PyStr → Option ℤ

/-- A value that a parameter may be given. -/
inductive Value (φ A : Type)
  | json (value : PyJson φ)
  | array (items : A)

section Types

variable {φ A : Type}

/-- An exception where the operation has no result. -/
def orRaise {α : Type} : Option α → Except (ParameterError κ) α
  | some a => .ok a
  | none => .error .raised

abbrev Sync (κ φ A : Type) : Type := Option (Value φ A → Except (ParameterError κ) Unit)

/-- A truth value as a number. -/
def boolInt (b : Bool) : ℤ := if b then 1 else 0

def intParameter [Numbers φ] (name : κ) (defaultValue minValue maxValue : ℤ)
    (syncFn : Sync κ φ A) : ParameterSpec κ (Value φ A) (PyJson φ) where
  name := name
  validate
    | .json (.bool b) => .ok (minValue ≤ boolInt b && boolInt b ≤ maxValue)
    | .json (.int n) => .ok (minValue ≤ n && n ≤ maxValue)
    | _ => .ok false
  getDefaultValue := .json (.int defaultValue)
  deserialize value := (orRaise (match value with
    | .bool b => some (boolInt b)
    | .int n => some n
    | .float x => Numbers.truncate x
    | .str text => Numbers.parseInt φ text
    | _ => none)).map fun n => .json (.int n)
  syncFn := syncFn

end Types

/-! ### Runs -/

inductive Operation (κ V J : Type)
  | set (updates : OrderedDict κ V)
  | loadFromFile (file : Config κ J)
  | resetToDefaults
  | syncAll

/-- The state after an operation, whether or not it raised. -/
def ParameterState.perform (s : ParameterState κ V J) : Operation κ V J → ParameterState κ V J
  | .set updates => (Parameters.set updates s).2
  | .loadFromFile file => (Parameters.loadFromFile file s).2
  | .resetToDefaults => (Parameters.resetToDefaults s).2
  | .syncAll => (Parameters.syncAll s).2

/-- A construction, and the operations after it if it did not raise. -/
def run (config : Config κ J) (parameters : List (ParameterSpec κ V J))
    (operations : List (Operation κ V J)) : ParameterState κ V J :=
  match construct config parameters .empty with
  | (.error _, s) => s
  | (.ok _, s) => operations.foldl ParameterState.perform s

/-- What a file holds for the parameters is not readable or valid. -/
def Config.Fits (parameters : List (ParameterSpec κ V J)) : Config κ J → Prop
  | .object members => ∀ spec ∈ parameters, ∀ value value', members.get? spec.name = some value →
      spec.deserialize value = .ok value' → spec.Valid value'
  | _ => True

def Operation.Fits (parameters : List (ParameterSpec κ V J)) : Operation κ V J → Prop
  | .loadFromFile file => file.Fits parameters
  | _ => True

section Runs

variable {parameters : List (ParameterSpec κ V J)}

/-- **The invariant:** the registered parameters are given ones, with valid values, and the sync
functions were called with valid values only. -/
structure Inv (parameters : List (ParameterSpec κ V J)) (s : ParameterState κ V J) : Prop where
  registered : ∀ name spec, s.parameters.get? name = some spec → spec ∈ parameters ∧
    spec.name = name ∧ ∃ value, s.values.get? name = some value ∧ spec.Valid value
  synced : ∀ call ∈ s.synced, call.1.Valid call.2

/-- **A sync function** is called with a valid value; the values stay. -/
theorem sync_spec {spec : ParameterSpec κ V J} {value : V} (hvalid : spec.Valid value)
    {s : ParameterState κ V J} (hs : Inv parameters s) :
    Fallible.wp (sync spec value) (fun _ s' => Inv parameters s' ∧ s'.values = s.values)
      (fun _ => Inv parameters) s := by
  unfold sync
  cases spec.syncFn with
  | none => exact ⟨hs, rfl⟩
  | some syncFn =>
    have hs' : Inv parameters { s with synced := s.synced ++ [(spec, value)] } := by
      refine ⟨hs.registered, fun call hcall => ?_⟩
      rcases List.mem_append.mp hcall with hcall | hcall
      · exact hs.synced call hcall
      · rw [List.mem_singleton.mp hcall]
        exact hvalid
    refine Fallible.wp_bind (Fallible.wp_modify ?_)
    cases syncFn value with
    | ok a => exact ⟨hs', rfl⟩
    | error e => exact hs'

theorem initialValue_valid {config : Config κ J} {spec : ParameterSpec κ V J} {value : V}
    (hmem : spec ∈ parameters) (hdefault : spec.Valid spec.getDefaultValue)
    (hfits : config.Fits parameters) (h : initialValue config spec = .ok value) :
    spec.Valid value := by
  cases config with
  | missing | sequence =>
    cases h
    exact hdefault
  | scalar => cases h
  | object members =>
    unfold initialValue at h
    dsimp only at h
    cases hget : members.get? spec.name with
    | none =>
      rw [hget] at h
      cases h
      exact hdefault
    | some entry =>
      rw [hget] at h
      dsimp only at h
      cases hread : spec.deserialize entry with
      | error e =>
        rw [hread] at h
        cases h
        exact hdefault
      | ok value' =>
        rw [hread] at h
        cases h
        exact hfits spec hmem entry _ hget hread

/-- What is known while a parameter is registered but has no value of its own yet. -/
theorem Inv.assign {s : ParameterState κ V J} (hs : Inv parameters s) {spec : ParameterSpec κ V J}
    {value : V} (hmem : spec ∈ parameters) (hvalid : spec.Valid value) :
    Inv parameters { s with
      parameters := s.parameters.insert spec.name spec
      values := s.values.insert spec.name value } := by
  refine ⟨fun name spec' hspec' => ?_, hs.synced⟩
  dsimp only at hspec' ⊢
  rw [OrderedDict.get?_insert] at hspec' ⊢
  by_cases hname : name = spec.name
  · rw [if_pos hname, Option.some_inj] at hspec'
    subst hspec'
    rw [if_pos hname]
    exact ⟨hmem, hname.symm, value, rfl, hvalid⟩
  · rw [if_neg hname] at hspec' ⊢
    exact hs.registered name spec' hspec'

/-- **Registering a parameter**; a config that cannot be searched ends the construction. -/
theorem registerAll_spec {config : Config κ J} (hfits : config.Fits parameters)
    (hdefaults : ∀ spec ∈ parameters, spec.Valid spec.getDefaultValue)
    {specs : List (ParameterSpec κ V J)} (hspecs : ∀ spec ∈ specs, spec ∈ parameters)
    {s : ParameterState κ V J} (hs : Inv parameters s) :
    Fallible.wp (registerAll config specs) (fun _ => Inv parameters)
      (fun _ s' => ∀ call ∈ s'.synced, call.1.Valid call.2) s := by
  induction specs generalizing s with
  | nil => exact hs
  | cons spec rest ih =>
    have hmem := hspecs spec List.mem_cons_self
    refine Fallible.wp_bind (Fallible.wp_mono (Q := fun _ => Inv parameters)
      (R := fun _ s' => ∀ call ∈ s'.synced, call.1.Valid call.2) ?_ (fun _ s' hs' => ?_)
      fun _ _ => id)
    · refine Fallible.wp_bind (Fallible.wp_modify (Fallible.wp_bind ?_))
      cases hvalue : initialValue config spec with
      | error e => exact hs.synced
      | ok value =>
        have hvalid := initialValue_valid hmem (hdefaults spec hmem) hfits hvalue
        refine Fallible.wp_bind (Fallible.wp_modify ?_)
        refine Fallible.wp_mono (sync_spec hvalid (hs.assign hmem hvalid)) ?_ ?_
        · exact fun _ _ hs' => hs'.1
        · exact fun _ _ hs' => hs'.synced
    · exact ih (fun spec' hspec' => hspecs spec' (List.mem_cons_of_mem _ hspec')) hs'

theorem syncEntries_spec {entries : List (κ × ParameterSpec κ V J)} {s : ParameterState κ V J}
    (hentries : ∀ entry ∈ entries, ∃ value, s.values.get? entry.1 = some value ∧
      entry.2.Valid value) (hs : Inv parameters s) :
    Fallible.wp (syncEntries entries) (fun _ => Inv parameters) (fun _ => Inv parameters) s := by
  induction entries generalizing s with
  | nil => exact hs
  | cons entry rest ih =>
    obtain ⟨name, spec⟩ := entry
    obtain ⟨⟨value, hget, hvalid⟩, hrest⟩ := List.forall_mem_cons.mp hentries
    unfold syncEntries
    cases hsync : spec.syncFn with
    | none => exact ih hrest hs
    | some syncFn =>
      refine Fallible.wp_bind (Fallible.wp_read ?_)
      simp only [hget]
      refine Fallible.wp_bind (Fallible.wp_mono (sync_spec hvalid hs) (fun _ s' hs' => ?_)
        fun _ _ => id)
      refine ih (fun entry hentry => ?_) hs'.1
      rw [hs'.2]
      exact hrest entry hentry

/-- **`sync_all`** -/
theorem syncAll_spec {s : ParameterState κ V J} (hs : Inv parameters s) :
    Fallible.wp syncAll (fun _ => Inv parameters) (fun _ => Inv parameters) s := by
  refine Fallible.wp_bind (Fallible.wp_read (syncEntries_spec (fun entry hentry => ?_) hs))
  exact (hs.registered entry.1 entry.2 (OrderedDict.get?_of_mem hentry)).2.2

/-- Assigning valid values keeps the invariant. -/
theorem Inv.assignAll {ι E : Type} {decide : κ → ι → Except E (Option V)} {entries : List (κ × ι)}
    {s : ParameterState κ V J} (hs : Inv parameters s)
    (hvalid : ∀ name item value spec, (name, item) ∈ entries → decide name item = .ok (some value) →
      s.parameters.get? name = some spec → spec.Valid value) :
    Inv parameters { s with values := (Parameters.assignAll decide entries s.values).2 } := by
  induction entries generalizing s with
  | nil => exact hs
  | cons entry rest ih =>
    obtain ⟨name, item⟩ := entry
    have hrest : ∀ name item value spec, (name, item) ∈ rest → decide name item = .ok (some value) →
        s.parameters.get? name = some spec → spec.Valid value :=
      fun name' item' value' spec' hmem => hvalid name' item' value' spec' (List.mem_cons_of_mem _ hmem)
    unfold Parameters.assignAll
    cases hdecide : decide name item with
    | error e => exact hs
    | ok value =>
      cases value with
      | none => exact ih hs hrest
      | some value =>
        have hs' : Inv parameters { s with values := s.values.insert name value } := by
          refine ⟨fun name' spec hspec => ?_, hs.synced⟩
          obtain ⟨hmem, hname, value', hget, hvalue'⟩ := hs.registered name' spec hspec
          refine ⟨hmem, hname, ?_⟩
          dsimp only
          rw [OrderedDict.get?_insert]
          by_cases hsame : name' = name
          · rw [if_pos hsame]
            subst hsame
            exact ⟨value, rfl, hvalid name' item value spec List.mem_cons_self hdecide hspec⟩
          · rw [if_neg hsame]
            exact ⟨value', hget, hvalue'⟩
        exact ih hs' hrest

theorem Inv.perform {s : ParameterState κ V J} (hs : Inv parameters s)
    (hdefaults : ∀ spec ∈ parameters, spec.Valid spec.getDefaultValue)
    {operation : Operation κ V J} (hfits : operation.Fits parameters) :
    Inv parameters (s.perform operation) := by
  cases operation with
  | set updates =>
    -- A value that is set has passed the check of its parameter.
    refine hs.assignAll fun name item value spec _ hcheck hspec => ?_
    obtain ⟨hvalue, spec', hspec', hvalid⟩ := ParameterState.check_ok_iff.mp hcheck
    rw [hspec] at hspec'
    cases hspec'
    cases hvalue
    exact hvalid
  | loadFromFile file =>
    cases file with
    | missing | sequence | scalar => exact hs
    | object members =>
      -- A value from the file was deserialized by the parameter's own specification.
      refine hs.assignAll fun name item value spec hmem hread hspec => ?_
      rw [ParameterState.readEntry, hspec] at hread
      dsimp only at hread
      obtain ⟨hgiven, rfl, -⟩ := hs.registered name spec hspec
      cases hvalue : spec.deserialize item with
      | error e =>
        rw [hvalue] at hread
        cases hread
      | ok value' =>
        rw [hvalue] at hread
        cases hread
        exact hfits spec hgiven item _ (OrderedDict.get?_of_mem hmem) hvalue
  | resetToDefaults =>
    refine ⟨fun name spec hspec => ?_, hs.synced⟩
    obtain ⟨hgiven, hname, -⟩ := hs.registered name spec hspec
    refine ⟨hgiven, hname, spec.getDefaultValue, ?_, hdefaults spec hgiven⟩
    exact OrderedDict.get?_foldl_insert_of_mem Prod.fst (fun entry => entry.2.getDefaultValue)
      s.parameters.nodup (OrderedDict.mem_of_get? hspec) s.values
  | syncAll => exact Fallible.wp_state (syncAll_spec hs)

/-- **Only valid values reach a retargeter:** whatever the operations are, if the files that are
read hold, for the parameters they name, what cannot be read or is valid. -/
theorem synced_valid (config : Config κ J) (parameters : List (ParameterSpec κ V J))
    (operations : List (Operation κ V J))
    (hdefaults : ∀ spec ∈ parameters, spec.Valid spec.getDefaultValue)
    (hconfig : config.Fits parameters) (hoperations : ∀ op ∈ operations, op.Fits parameters) :
    ∀ call ∈ (run config parameters operations).synced, call.1.Valid call.2 := by
  have hempty : Inv parameters (.empty : ParameterState κ V J) := ⟨nofun, nofun⟩
  have hconstruct : Fallible.wp (construct config parameters) (fun _ => Inv parameters)
      (fun _ s => ∀ call ∈ s.synced, call.1.Valid call.2) .empty := by
    unfold construct
    split
    · exact nofun
    · exact registerAll_spec hconfig hdefaults (fun _ => id) hempty
  unfold run
  unfold Fallible.wp at hconstruct
  rcases hresult : construct config parameters .empty with ⟨e | a, s⟩
  · rw [hresult] at hconstruct
    exact hconstruct
  · rw [hresult] at hconstruct
    -- By the operations, as each keeps the invariant.
    have hrun : ∀ operations : List (Operation κ V J), (∀ op ∈ operations, op.Fits parameters) →
        ∀ s : ParameterState κ V J, Inv parameters s →
          Inv parameters (operations.foldl ParameterState.perform s) := by
      intro operations
      induction operations with
      | nil => exact fun _ _ hs => hs
      | cons op rest ih =>
        intro hops s hs
        obtain ⟨hop, hrest⟩ := List.forall_mem_cons.mp hops
        exact ih hrest _ (hs.perform hdefaults hop)
    exact (hrun operations hoperations s hconstruct).synced

end Runs

/-! ### Two parameters -/

instance : Numbers ExactFloat where
  truncate
    | .finite x => some (if 0 ≤ x then ⌊x⌋ else ⌈x⌉)
    | _ => none
  parseInt _ := none

abbrev ExampleValue : Type := Value ExactFloat (List ExactFloat)

/-- An integer between 0 and 10 with a sync function. -/
def knob (name : String) : ParameterSpec String ExampleValue (PyJson ExactFloat) :=
  intParameter name 5 0 10 (some fun _ => .ok ())

def knobs : ParameterState String ExampleValue (PyJson ExactFloat) :=
  (construct .missing [knob "gain", knob "offset"] .empty).2

/-- A good value, then a bad one. -/
def mixedUpdates : OrderedDict String ExampleValue :=
  ⟨[("gain", .json (.int 2)), ("offset", .json (.int 500))], by decide⟩

/-- The first of two updates stays when the second is refused. -/
theorem refused_set_changes_gain : ¬SetAtomic knobs mixedUpdates := by
  intro hatomic
  have hkept := (hatomic.raises (.valueError "offset") _ rfl).2 "gain"
  have hgain : (some (.json (.int 2)) : Option ExampleValue) = some (.json (.int 5)) := hkept
  cases hgain

/-- A config file with a value out of bounds. -/
def wildConfig : Config String (PyJson ExactFloat) := .object ⟨[("gain", .int 500)], by decide⟩

/-- The value of the config file reaches the sync function. -/
theorem config_value_out_of_bounds :
    ¬∀ call ∈ (run wildConfig [knob "gain"] []).synced, call.1.Valid call.2 := by
  intro hvalid
  have hcall := hvalid (knob "gain", .json (.int 500)) (List.mem_singleton.mpr rfl)
  cases hcall

/-- A config file with a good value, and a load of it later. -/
def tameConfig : Config String (PyJson ExactFloat) := .object ⟨[("gain", .int 7)], by decide⟩

theorem tame_config_synced :
    (run tameConfig [knob "gain"] [.loadFromFile tameConfig, .syncAll]).synced.length = 2 ∧
      ∀ call ∈ (run tameConfig [knob "gain"] [.loadFromFile tameConfig, .syncAll]).synced,
        call.1.Valid call.2 := by
  have hfits : tameConfig.Fits [knob "gain"] := by
    intro spec hspec value value' hvalue hread
    obtain rfl := List.mem_singleton.mp hspec
    have hseven : (some (.int 7) : Option (PyJson ExactFloat)) = some value := hvalue
    cases hseven
    cases hread
    rfl
  refine ⟨rfl, synced_valid tameConfig [knob "gain"] _ ?_ hfits ?_⟩
  · intro spec hspec
    obtain rfl := List.mem_singleton.mp hspec
    rfl
  · intro op hop
    rcases List.mem_cons.mp hop with rfl | hop
    · exact hfits
    · rw [List.mem_singleton.mp hop]
      trivial

end Parameters
