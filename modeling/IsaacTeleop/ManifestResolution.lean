/-
The resolution of a tracker entry.

An entry of the manifest is laid over the defaults of its direction.  Then passes go over the keys
that are left: one whose placeholders all name resolved keys is resolved, one that names another key
waits, and a pass that resolves none ends with an error.

* `mergeDefaults`, `passes`, `resolveTrackerEntry` — the functions of the manifest;
* `Settled` — what holds between two attempts;
* `Resolvable` — every named key has a text, and no chain of references is cyclic;
* `expansion_spec` — the passes suffice, succeed exactly then, and give the only solution.
-/
import IsaacTeleop.ManifestTemplate
import IsaacTeleop.OrderedDict
import IsaacTeleop.AcyclicEquations

open ManifestTemplate AcyclicEquations

namespace ManifestResolution

/-! ### Merging -/

abbrev Table := OrderedDict PyStr Value

def nameKey : PyStr := PyStr.ofString "name"

def tableKey : PyStr := PyStr.ofString "table"

inductive Direction
  | pull
  | push
  deriving DecidableEq

def Direction.key : Direction → PyStr
  | .pull => PyStr.ofString "pull"
  | .push => PyStr.ofString "push"

/-- The exceptions of the resolution, with what their messages name. -/
inductive Error
  /-- tracker entry missing required key 'name' -/
  | missingName
  /-- missing required key 'table' -/
  | missingTable (name : Value)
  /-- the defaults are no table -/
  | attributeError
  /-- invalid direction -/
  | invalidDirection (name direction : Value)
  /-- placeholder requires a string value -/
  | placeholderType (key : PyStr) (typeName : String)
  /-- no value under a key that is pending -/
  | keyError (key : PyStr)
  /-- could not resolve keys (cycle or missing reference) -/
  | unresolved (name : Value) (keys : List PyStr)
  /-- missing required keys after resolution -/
  | missingRequired (name : Value) (keys : List PyStr)
  /-- record must be a boolean -/
  | recordType (name : Value) (typeName : String)
  /-- metadata must name a table -/
  | metadataValue (name metadata : Value)
  /-- metadata requires direction=pull -/
  | metadataDirection (name : Value)
  /-- missing required key for direction=pull -/
  | missingChannels (name : Value) (key : PyStr)
  /-- shape=single_collection requires record=true -/
  | collectionRecord (name : Value)

/-- `dict.update` -/
def update (d : Table) (entries : List (PyStr × Value)) : Table :=
  entries.foldl (fun d entry => d.insert entry.1 entry.2) d

/-- The entries of a table, and none of another value. -/
def overlayOf : Option Value → List (PyStr × Value)
  | some (.dict entries) => entries
  | _ => []

/-- `_merge_defaults`, with the table under `defaults`. -/
def mergeDefaults (base : Table) (direction : Direction) (defaults : Table) : Table :=
  let overlay := overlayOf (defaults.get? direction.key)
  let root := defaults.filterKeys fun k => k ≠ Direction.pull.key && k ≠ Direction.push.key
  update (update root overlay) base.entries

/-- `defaults_doc.get("defaults", {})` -/
def defaultsOf (defaultsDoc : Table) : Except Error Table :=
  match defaultsDoc.get? (PyStr.ofString "defaults") with
  | none => .ok ∅
  | some (.dict entries) => .ok (update ∅ entries)
  | some _ => .error .attributeError

/-- The value of `direction` in the entry or the defaults. -/
def directionValue (raw defaults : Table) : Value :=
  let key := PyStr.ofString "direction"
  (raw.get? key).getD ((defaults.get? key).getD (.str Direction.pull.key))

def directionOf (value : Value) : Option Direction :=
  if value.text? = some Direction.pull.key then some .pull
  else if value.text? = some Direction.push.key then some .push
  else none

/-! ### Passes -/

structure State where
  resolved : Table
  pending : Table
  progressed : Bool := false

variable (rule : CharRule)

/-- One key of a pass. -/
def attempt (s : State) (key : PyStr) : Except Error State :=
  match s.pending.get? key with
  | none => .error (.keyError key)
  | some value =>
    match expandValue rule s.resolved.get? value with
    | .ok newValue => .ok {
        resolved := s.resolved.insert key newValue
        pending := s.pending.filterKeys fun k => k ≠ key
        progressed := true }
    | .error (.keyError _) => .ok s
    | .error (.typeError key typeName) => .error (.placeholderType key typeName)

def attempts : List PyStr → State → Except Error State
  | [], s => .ok s
  | key :: keys, s => do
    let s ← attempt rule s key
    attempts keys s

/-- `sorted` -/
def sorted (keys : List PyStr) : List PyStr := keys.mergeSort fun a b => decide (a ≤ b)

/-- The loop; with no passes left it ends as it is. -/
def passes (name : Value) : ℕ → State → Except Error State
  | 0, s => .ok s
  | turns + 1, s => do
    let s ← attempts rule s.pending.keys { s with progressed := false }
    if s.pending.entries = [] then return s
    else if !s.progressed then .error (.unresolved name (sorted s.pending.keys))
    else passes name turns s

/-- `resolved` before the first pass. -/
def seed (name table : Value) : Table :=
  ((∅ : Table).insert nameKey name).insert tableKey table

/-- The loop over the keys in the order that they have. -/
def expansion (name table : Value) (pending : Table) : Except Error State :=
  passes rule name (pending.entries.length + 8) { resolved := seed name table, pending }

/-- The keys that are left to resolve. -/
def pendingOf (raw : Table) (direction : Direction) (defaults : Table) : Table :=
  (mergeDefaults raw direction defaults).filterKeys fun k => k ≠ nameKey && k ≠ tableKey

/-- `resolve_tracker_entry`, up to the end of the loop. -/
def expandEntry (raw defaultsDoc : Table) : Except Error State :=
  match raw.get? nameKey with
  | none => .error .missingName
  | some name =>
    match raw.get? tableKey with
    | none => .error (.missingTable name)
    | some table => do
      let defaults ← defaultsOf defaultsDoc
      match directionOf (directionValue raw defaults) with
      | none => .error (.invalidDirection name (directionValue raw defaults))
      | some direction => expansion rule name table (pendingOf raw direction defaults)

/-! ### Checks -/

/-- `RESOLVED_REQUIRED` -/
def resolvedRequired : List PyStr :=
  ["name", "direction", "shape", "schema", "table", "class", "tensor_identifier", "localized_name",
    "channel", "traits", "python_accessor", "max_flatbuffer_size", "record",
    "facade_tensor_constant"].map PyStr.ofString

/-- `value == text` -/
def isText (value : Option Value) (text : String) : Bool :=
  match value with
  | some (.str s) => s = PyStr.ofString text
  | _ => false

/-- The value of a key with a literal name. -/
def item (resolved : Table) (key : String) : Option Value := resolved.get? (PyStr.ofString key)

def metadataError (name : Value) (resolved : Table) : Option Error :=
  match item resolved "metadata" with
  | none => none
  | some (.str (_ :: _)) =>
    if isText (item resolved "direction") "pull" then none else some (.metadataDirection name)
  | some metadata => some (.metadataValue name metadata)

def channelsError (name : Value) (resolved : Table) (record : Bool) : Option Error :=
  if isText (item resolved "direction") "pull" && record then
    (["mcap_channels", "replay_channels"].find? fun key => (item resolved key).isNone).map
      fun key => .missingChannels name (PyStr.ofString key)
  else none

def collectionError (name : Value) (resolved : Table) (record : Bool) : Option Error :=
  if isText (item resolved "direction") "pull" && isText (item resolved "shape") "single_collection"
      && !record then
    some (.collectionRecord name)
  else none

/-- The checks of a resolved entry. -/
def checkResolved (name : Value) (resolved : Table) : Except Error Table :=
  let missing := resolvedRequired.filter fun key => (resolved.get? key).isNone
  if missing ≠ [] then .error (.missingRequired name (sorted missing))
  else
    match item resolved "record" with
    | none => .error (.keyError (PyStr.ofString "record"))
    | some (.bool record) =>
      match metadataError name resolved <|> channelsError name resolved record <|>
          collectionError name resolved record with
      | some e => .error e
      | none => .ok resolved
    | some other => .error (.recordType name other.typeName)

def resolveTrackerEntry (raw defaultsDoc : Table) : Except Error Table := do
  let s ← expandEntry rule raw defaultsDoc
  checkResolved ((raw.get? nameKey).getD (.str [])) s.resolved

/-! ### What the templates ask for -/

/-- The value of a key before the loop. -/
def sourceOf (name table : Value) (templates : PyStr → Option Value) (key : PyStr) : Option Value :=
  if key = nameKey then some name
  else if key = tableKey then some table
  else templates key

/-- A merged key names another in its template. -/
def Refers (templates : PyStr → Option Value) (k r : PyStr) : Prop :=
  ∃ v, templates k = some v ∧ r ∈ refs v ∧ ∃ w, templates r = some w

/-- Each key that a placeholder names has a value that is no list, mapping, boolean or number, and
no chain of references is cyclic. -/
structure Resolvable (name table : Value) (templates : PyStr → Option Value) : Prop where
  text : ∀ k v, templates k = some v → ∀ r ∈ refs v,
    ∃ value, sourceOf name table templates r = some value ∧ value.text?.isSome = true
  acyclic : Acyclic (Refers templates)

/-- Each value is its template with every placeholder replaced by the transformed value of its
key. -/
structure Solution (name table : Value) (templates ρ : PyStr → Option Value) : Prop where
  name : ρ nameKey = some name
  table : ρ tableKey = some table
  other : ∀ k, k ≠ nameKey → k ≠ tableKey → ρ k = (templates k).map (fill rule ρ)

/-! ### One attempt -/

section Attempt

variable {rule : CharRule} {s s' : State} {key : PyStr} {v : Value}

/-- The state after a key has been resolved. -/
def State.settle (s : State) (key : PyStr) (value : Value) : State :=
  { resolved := s.resolved.insert key value
    pending := s.pending.filterKeys fun k => k ≠ key
    progressed := true }

@[simp] theorem get?_resolved_settle (s : State) (key k : PyStr) (value : Value) :
    (s.settle key value).resolved.get? k = if k = key then some value else s.resolved.get? k :=
  OrderedDict.get?_insert s.resolved key k value

@[simp] theorem get?_pending_settle (s : State) (key k : PyStr) (value : Value) :
    (s.settle key value).pending.get? k = if k = key then none else s.pending.get? k := by
  rw [State.settle, OrderedDict.get?_filterKeys]
  by_cases hk : k = key <;> simp [hk]

/-- **What an attempt does**: the key waits, is resolved, or names a key without a text. -/
theorem attempt_cases (h : s.pending.get? key = some v) :
    (attempt rule s key = .ok s ∧ ∃ r ∈ refs v, s.resolved.get? r = none) ∨
    (attempt rule s key = .ok (s.settle key (fill rule s.resolved.get? v)) ∧
      ∀ r ∈ refs v, (textOf s.resolved.get? r).isSome = true) ∨
    ∃ e, attempt rule s key = .error e ∧
      ∃ r ∈ refs v, ∃ raw, s.resolved.get? r = some raw ∧ raw.text? = none := by
  rw [attempt, h]
  dsimp only
  cases hexpand : expandValue rule s.resolved.get? v with
  | ok w =>
    obtain ⟨rfl, htext⟩ := expandValue_ok hexpand
    exact .inr (.inl ⟨rfl, htext⟩)
  | error failure =>
    cases failure with
    | keyError r =>
      obtain ⟨hr, hnone⟩ := expandValue_keyError hexpand
      exact .inl ⟨rfl, r, hr, hnone⟩
    | typeError r typeName =>
      obtain ⟨hr, raw, hraw, htext⟩ := expandValue_typeError hexpand
      exact .inr (.inr ⟨_, rfl, r, hr, raw, hraw, htext⟩)

/-- What an attempt that raises nothing has done. -/
theorem attempt_ok (h : attempt rule s key = .ok s') :
    ∃ v, s.pending.get? key = some v ∧
      ((s' = s ∧ ∃ r ∈ refs v, s.resolved.get? r = none) ∨
        (s' = s.settle key (fill rule s.resolved.get? v) ∧
          ∀ r ∈ refs v, (textOf s.resolved.get? r).isSome = true)) := by
  cases hpending : s.pending.get? key with
  | none =>
    rw [attempt, hpending] at h
    cases h
  | some v =>
    refine ⟨v, rfl, ?_⟩
    rcases @attempt_cases rule s key v hpending with ⟨hok, hr⟩ | ⟨hok, htext⟩ | ⟨e, herror, -⟩
    · rw [hok, Except.ok.injEq] at h
      exact .inl ⟨h.symm, hr⟩
    · rw [hok, Except.ok.injEq] at h
      exact .inr ⟨h.symm, htext⟩
    · rw [herror] at h
      cases h

/-- **The rule for a pass**: what every attempt keeps holds after all of them. -/
theorem attempts_invariant {motive : State → Prop}
    (hstep : ∀ s key s', motive s → attempt rule s key = .ok s' → motive s') {keys : List PyStr}
    (hs : motive s) (h : attempts rule keys s = .ok s') : motive s' := by
  induction keys generalizing s with
  | nil =>
    cases h
    exact hs
  | cons key keys ih =>
    rw [attempts] at h
    cases hattempt : attempt rule s key with
    | error e =>
      rw [hattempt] at h
      cases h
    | ok s₁ =>
      rw [hattempt] at h
      exact ih (hstep s key s₁ hs hattempt) h

/-- A pass that resolves no key changes nothing, and each key names one that is not resolved. -/
theorem attempts_stuck {keys : List PyStr} (h : attempts rule keys s = .ok s')
    (hstuck : s'.progressed = false) :
    s' = s ∧ ∀ k ∈ keys, ∀ v, s.pending.get? k = some v →
      ∃ r ∈ refs v, s.resolved.get? r = none := by
  induction keys generalizing s with
  | nil =>
    cases h
    exact ⟨rfl, by simp⟩
  | cons key keys ih =>
    rw [attempts] at h
    cases hattempt : attempt rule s key with
    | error e =>
      rw [hattempt] at h
      cases h
    | ok s₁ =>
      rw [hattempt] at h
      obtain ⟨v, hv, ⟨rfl, r, hr, hnone⟩ | ⟨rfl, -⟩⟩ := attempt_ok hattempt
      · obtain ⟨rfl, hkeys⟩ := ih h
        refine ⟨rfl, fun k hk v' hv' => ?_⟩
        rcases List.mem_cons.mp hk with rfl | hk
        · rw [hv, Option.some_inj] at hv'
          exact ⟨r, hv' ▸ hr, hnone⟩
        · exact hkeys k hk v' hv'
      · -- Once a key is resolved, the pass has progressed to its end.
        have hprogressed : s'.progressed = true := by
          refine attempts_invariant (motive := fun s => s.progressed = true) ?_ rfl h
          intro s key s' hs hattempt
          obtain ⟨v, -, ⟨rfl, -⟩ | ⟨rfl, -⟩⟩ := attempt_ok hattempt
          · exact hs
          · rfl
        rw [hprogressed] at hstuck
        cases hstuck

/-- A pass takes off as many keys as it resolves. -/
theorem attempts_length {keys : List PyStr} (h : attempts rule keys s = .ok s')
    (hs : s.progressed = false) (hs' : s'.progressed = true) :
    s'.pending.entries.length < s.pending.entries.length := by
  have hmeasure : s'.pending.entries.length + s'.progressed.toNat ≤
      s.pending.entries.length + s.progressed.toNat := by
    refine attempts_invariant (motive := fun t => t.pending.entries.length + t.progressed.toNat ≤
      s.pending.entries.length + s.progressed.toNat) ?_ le_rfl h
    intro t key t' ht hattempt
    obtain ⟨v, hv, ⟨rfl, -⟩ | ⟨rfl, -⟩⟩ := attempt_ok hattempt
    · exact ht
    · have hlt : (t.pending.entries.filter fun e => e.1 ≠ key).length < t.pending.entries.length :=
        List.length_filter_lt_length_iff_exists.mpr
          ⟨(key, v), OrderedDict.mem_of_get? hv, by simp⟩
      show (t.pending.entries.filter fun e => e.1 ≠ key).length + 1 ≤ _
      omega
  rw [hs, hs'] at hmeasure
  exact hmeasure

end Attempt

/-! ### Between two attempts -/

section Settled

/-- What holds between two attempts: a resolved key has its template with the values of the keys
that it names, and these were resolved before it. -/
structure Settled (name table : Value) (templates : PyStr → Option Value) (s : State) : Prop where
  name : s.resolved.get? nameKey = some name
  table : s.resolved.get? tableKey = some table
  pending : ∀ k v, s.pending.get? k = some v → templates k = some v ∧ s.resolved.get? k = none
  cover : ∀ k v, templates k = some v → s.resolved.get? k = none → s.pending.get? k = some v
  outside : ∀ k, templates k = none → k ≠ nameKey → k ≠ tableKey → s.resolved.get? k = none
  resolved : ∀ k v w, templates k = some v → s.resolved.get? k = some w →
    w = fill rule s.resolved.get? v ∧
      (∀ r ∈ refs v, (textOf s.resolved.get? r).isSome = true) ∧
      Acc (fun r k => Refers templates k r) k

variable {rule : CharRule} {name table : Value} {templates : PyStr → Option Value} {s s' : State}

theorem exists_of_textOf {values : PyStr → Option Value} {r : PyStr}
    (h : (textOf values r).isSome = true) :
    ∃ raw, values r = some raw ∧ raw.text?.isSome = true := by
  rw [textOf] at h
  cases hr : values r with
  | none =>
    rw [hr] at h
    cases h
  | some raw =>
    rw [hr, Option.bind_some] at h
    exact ⟨raw, rfl, h⟩

/-- **A resolved key keeps the invariant.** -/
theorem Settled.settle (h : Settled rule name table templates s) {key : PyStr} {v : Value}
    (hv : s.pending.get? key = some v)
    (htext : ∀ r ∈ refs v, (textOf s.resolved.get? r).isSome = true) :
    Settled rule name table templates (s.settle key (fill rule s.resolved.get? v)) := by
  obtain ⟨htemplate, hnone⟩ := h.pending key v hv
  -- Keys with a value differ from the new one, so that they keep their values.
  have hkeep : ∀ r raw, s.resolved.get? r = some raw →
      (s.settle key (fill rule s.resolved.get? v)).resolved.get? r = s.resolved.get? r := by
    intro r raw hraw
    have hne : r ≠ key := by
      rintro rfl
      rw [hnone] at hraw
      cases hraw
    rw [get?_resolved_settle, if_neg hne]
  have hkeepText : ∀ r, (textOf s.resolved.get? r).isSome = true →
      (s.settle key (fill rule s.resolved.get? v)).resolved.get? r = s.resolved.get? r := by
    intro r hr
    obtain ⟨raw, hraw, -⟩ := exists_of_textOf hr
    exact hkeep r raw hraw
  have hstillText : ∀ r, (textOf s.resolved.get? r).isSome = true →
      (textOf (s.settle key (fill rule s.resolved.get? v)).resolved.get? r).isSome = true := by
    intro r hr
    rw [textOf, hkeepText r hr]
    exact hr
  refine ⟨?_, ?_, ?_, ?_, ?_, ?_⟩
  · rw [hkeep _ _ h.name, h.name]
  · rw [hkeep _ _ h.table, h.table]
  · intro k w hw
    rw [get?_pending_settle] at hw
    by_cases hk : k = key
    · rw [if_pos hk] at hw
      cases hw
    · rw [if_neg hk] at hw
      rw [get?_resolved_settle, if_neg hk]
      exact h.pending k w hw
  · intro k w hw hresolved
    rw [get?_resolved_settle] at hresolved
    by_cases hk : k = key
    · rw [if_pos hk] at hresolved
      cases hresolved
    · rw [if_neg hk] at hresolved
      rw [get?_pending_settle, if_neg hk]
      exact h.cover k w hw hresolved
  · intro k hk hkName hkTable
    have hne : k ≠ key := by
      rintro rfl
      rw [htemplate] at hk
      cases hk
    rw [get?_resolved_settle, if_neg hne]
    exact h.outside k hk hkName hkTable
  · intro k v' w hv' hw
    rw [get?_resolved_settle] at hw
    by_cases hk : k = key
    · rw [if_pos hk, Option.some_inj] at hw
      subst hk
      rw [htemplate, Option.some_inj] at hv'
      subst hv'
      refine ⟨?_, fun r hr => hstillText r (htext r hr), ⟨k, ?_⟩⟩
      · rw [← hw]
        exact fill_congr v fun r hr => (hkeepText r (htext r hr)).symm
      · -- The keys that it names were resolved before.
        rintro r ⟨v', hv', hr, u, hu⟩
        rw [htemplate, Option.some_inj] at hv'
        obtain ⟨raw, hraw, -⟩ := exists_of_textOf (htext r (hv' ▸ hr))
        exact (h.resolved r u raw hu hraw).2.2
    · rw [if_neg hk] at hw
      obtain ⟨hfill, htext', hacc⟩ := h.resolved k v' w hv' hw
      refine ⟨?_, fun r hr => hstillText r (htext' r hr), hacc⟩
      rw [hfill]
      exact fill_congr v' fun r hr => (hkeepText r (htext' r hr)).symm

theorem Settled.attempt (h : Settled rule name table templates s) {key : PyStr}
    (hattempt : attempt rule s key = .ok s') : Settled rule name table templates s' := by
  obtain ⟨v, hv, ⟨rfl, -⟩ | ⟨rfl, htext⟩⟩ := attempt_ok hattempt
  · exact h
  · exact h.settle hv htext

theorem Settled.reset (h : Settled rule name table templates s) :
    Settled rule name table templates { s with progressed := false } :=
  ⟨h.name, h.table, h.pending, h.cover, h.outside, h.resolved⟩

theorem Settled.attempts (h : Settled rule name table templates s) {keys : List PyStr}
    (hattempts : attempts rule keys s = .ok s') : Settled rule name table templates s' :=
  attempts_invariant (fun _ _ _ hs hattempt => hs.attempt hattempt) h hattempts

/-- Before the first pass. -/
theorem settled_seed {pending : Table} (hname : pending.get? nameKey = none)
    (htable : pending.get? tableKey = none) :
    Settled rule name table pending.get? { resolved := seed name table, pending } := by
  have hget : ∀ k, (seed name table).get? k =
      if k = tableKey then some table else if k = nameKey then some name else none := by
    intro k
    rw [seed, OrderedDict.get?_insert, OrderedDict.get?_insert]
    rfl
  -- The seeds are no merged keys.
  have hseed : ∀ k v, pending.get? k = some v → (seed name table).get? k = none := by
    intro k v hv
    rw [hget, if_neg, if_neg]
    · rintro rfl
      rw [hname] at hv
      cases hv
    · rintro rfl
      rw [htable] at hv
      cases hv
  refine ⟨?_, ?_, fun k v hv => ⟨hv, hseed k v hv⟩, fun k v hv _ => hv, ?_, ?_⟩
  · exact (hget nameKey).trans (by rw [if_neg (by decide), if_pos rfl])
  · exact (hget tableKey).trans (if_pos rfl)
  · intro k _ hkName hkTable
    exact (hget k).trans (by rw [if_neg hkTable, if_neg hkName])
  · intro k v w hv hw
    have hnone := hseed k v hv
    rw [show (seed name table).get? k = some w from hw] at hnone
    cases hnone

end Settled

/-! ### The loop -/

section Loop

variable {rule : CharRule} {name table : Value} {templates : PyStr → Option Value} {s s' : State}

/-- One pass. -/
theorem passes_succ {s₁ : State} (turns : ℕ)
    (h : attempts rule s.pending.keys { s with progressed := false } = .ok s₁) :
    passes rule name (turns + 1) s =
      if s₁.pending.entries = [] then .ok s₁
      else if !s₁.progressed then .error (.unresolved name (sorted s₁.pending.keys))
      else passes rule name turns s₁ := by
  rw [passes, h]
  rfl

/-- **The passes suffice**: the loop ends with no key left. -/
theorem passes_settled {turns : ℕ} (h : Settled rule name table templates s)
    (hturns : s.pending.entries.length < turns) (hpasses : passes rule name turns s = .ok s') :
    Settled rule name table templates s' ∧ s'.pending.entries = [] := by
  induction turns generalizing s with
  | zero => exact absurd hturns (Nat.not_lt_zero _)
  | succ turns ih =>
    cases hattempts : attempts rule s.pending.keys { s with progressed := false } with
    | error e =>
      rw [passes, hattempts] at hpasses
      cases hpasses
    | ok s₁ =>
      rw [passes_succ turns hattempts] at hpasses
      have hsettled := h.reset.attempts hattempts
      split at hpasses
      · rename_i hempty
        cases hpasses
        exact ⟨hsettled, hempty⟩
      · split at hpasses
        · cases hpasses
        · rename_i hprogressed
          have hlt := attempts_length hattempts rfl (by simpa using hprogressed)
          change s₁.pending.entries.length < s.pending.entries.length at hlt
          exact ih hsettled (by omega) hpasses

/-- Where every named key has a text, an attempt raises nothing. -/
theorem Settled.exists_attempt (h : Settled rule name table templates s)
    (hresolvable : Resolvable name table templates) {key : PyStr} {v : Value}
    (hv : s.pending.get? key = some v) : ∃ s', ManifestResolution.attempt rule s key = .ok s' := by
  rcases @attempt_cases rule s key v hv with ⟨hok, -⟩ | ⟨hok, -⟩ | ⟨e, -, r, hr, raw, hraw, hnone⟩
  · exact ⟨_, hok⟩
  · exact ⟨_, hok⟩
  · exfalso
    obtain ⟨value, hvalue, htext⟩ := hresolvable.text key v (h.pending key v hv).1 r hr
    -- The value that was found has a text, as the value before the loop has.
    have hsome : raw.text?.isSome = true := by
      rw [sourceOf] at hvalue
      split at hvalue
      · rename_i hname
        rw [hname, h.name] at hraw
        rw [← Option.some.inj hraw, Option.some.inj hvalue]
        exact htext
      · split at hvalue
        · rename_i htable
          rw [htable, h.table] at hraw
          rw [← Option.some.inj hraw, Option.some.inj hvalue]
          exact htext
        · rw [(h.resolved r value raw hvalue hraw).1, isSome_text?_fill]
          exact htext
    rw [hnone] at hsome
    cases hsome

theorem Settled.exists_attempts (h : Settled rule name table templates s)
    (hresolvable : Resolvable name table templates) {keys : List PyStr} (hnodup : keys.Nodup)
    (hkeys : ∀ k ∈ keys, ∃ v, s.pending.get? k = some v) :
    ∃ s', ManifestResolution.attempts rule keys s = .ok s' := by
  induction keys generalizing s with
  | nil => exact ⟨s, rfl⟩
  | cons key keys ih =>
    obtain ⟨hnot, hnodup⟩ := List.nodup_cons.mp hnodup
    obtain ⟨v, hv⟩ := hkeys key List.mem_cons_self
    obtain ⟨s₁, hattempt⟩ := h.exists_attempt hresolvable hv
    -- An attempt settles its own key only.
    have hrest : ∀ k ∈ keys, ∃ v, s₁.pending.get? k = some v := by
      intro k hk
      obtain ⟨w, hw⟩ := hkeys k (List.mem_cons_of_mem _ hk)
      refine ⟨w, ?_⟩
      obtain ⟨v, -, ⟨rfl, -⟩ | ⟨rfl, -⟩⟩ := attempt_ok hattempt
      · exact hw
      · have hne : k ≠ key := by
          rintro rfl
          exact hnot hk
        rw [get?_pending_settle, if_neg hne]
        exact hw
    obtain ⟨s', hattempts⟩ := ih (h.attempt hattempt) hnodup hrest
    refine ⟨s', ?_⟩
    rw [ManifestResolution.attempts, hattempt]
    exact hattempts

/-- **Progress**: along an acyclic relation some pending key names resolved keys only. -/
theorem Settled.exists_ready (h : Settled rule name table templates s)
    (hresolvable : Resolvable name table templates) (hne : s.pending.entries ≠ []) :
    ∃ k v, s.pending.get? k = some v ∧ ∀ r ∈ refs v, s.resolved.get? r ≠ none := by
  have hfinite : {k | k ∈ s.pending.keys}.Finite := List.finite_toSet s.pending.keys
  have hnonempty : {k | k ∈ s.pending.keys}.Nonempty := by
    obtain ⟨entry, hentry⟩ := List.exists_mem_of_ne_nil _ hne
    exact ⟨entry.1, List.mem_map_of_mem hentry⟩
  obtain ⟨k, hk, hlast⟩ := exists_last hresolvable.acyclic hfinite hnonempty
  obtain ⟨v, hv⟩ := OrderedDict.mem_keys.mp hk
  refine ⟨k, v, hv, fun r hr hnone => ?_⟩
  have htemplate := (h.pending k v hv).1
  -- A key that is not resolved is pending, and then the last key refers to it.
  obtain ⟨value, hvalue, -⟩ := hresolvable.text k v htemplate r hr
  rw [sourceOf] at hvalue
  split at hvalue
  · rename_i hname
    rw [hname, h.name] at hnone
    cases hnone
  · split at hvalue
    · rename_i htable
      rw [htable, h.table] at hnone
      cases hnone
    · have hpending := h.cover r value hvalue hnone
      exact hlast r (OrderedDict.mem_keys.mpr ⟨value, hpending⟩)
        (.single ⟨v, htemplate, hr, value, hvalue⟩)

/-- **The loop succeeds** on what is resolvable. -/
theorem exists_passes (hresolvable : Resolvable name table templates) {turns : ℕ}
    (h : Settled rule name table templates s) (hturns : s.pending.entries.length < turns) :
    ∃ s', passes rule name turns s = .ok s' := by
  induction turns generalizing s with
  | zero => exact absurd hturns (Nat.not_lt_zero _)
  | succ turns ih =>
    obtain ⟨s₁, hattempts⟩ := h.reset.exists_attempts hresolvable s.pending.nodup
      fun k hk => OrderedDict.mem_keys.mp hk
    have hsettled := h.reset.attempts hattempts
    rw [passes_succ turns hattempts]
    by_cases hempty : s₁.pending.entries = []
    · exact ⟨s₁, if_pos hempty⟩
    · rw [if_neg hempty]
      -- A pass that settles nothing would leave every pending key waiting, but one of them is
      -- ready.
      have hprogressed : s₁.progressed = true := by
        by_contra hstuck
        rw [Bool.not_eq_true] at hstuck
        obtain ⟨rfl, hwait⟩ := attempts_stuck hattempts hstuck
        obtain ⟨k, v, hv, hready⟩ := h.exists_ready hresolvable hempty
        obtain ⟨r, hr, hnone⟩ := hwait k (OrderedDict.mem_keys.mpr ⟨v, hv⟩) v hv
        exact hready r hr hnone
      have hlt := attempts_length hattempts rfl hprogressed
      change s₁.pending.entries.length < s.pending.entries.length at hlt
      rw [hprogressed, if_neg (by simp)]
      exact ih hsettled (by omega)

/-- What the loop has resolved was resolvable. -/
theorem Settled.resolvable (h : Settled rule name table templates s)
    (hempty : s.pending.entries = []) : Resolvable name table templates := by
  have hall : ∀ k v, templates k = some v → ∃ w, s.resolved.get? k = some w := by
    intro k v hv
    cases hresolved : s.resolved.get? k with
    | some w => exact ⟨w, rfl⟩
    | none =>
      have hmem := OrderedDict.mem_of_get? (h.cover k v hv hresolved)
      rw [hempty] at hmem
      cases hmem
  constructor
  · intro k v hv r hr
    obtain ⟨w, hw⟩ := hall k v hv
    obtain ⟨raw, hraw, htext⟩ := exists_of_textOf ((h.resolved k v w hv hw).2.1 r hr)
    rw [sourceOf]
    split
    · rename_i hname
      rw [hname, h.name] at hraw
      exact ⟨name, rfl, Option.some.inj hraw ▸ htext⟩
    · split
      · rename_i htable
        rw [htable, h.table] at hraw
        exact ⟨table, rfl, Option.some.inj hraw ▸ htext⟩
      · rename_i hrName hrTable
        cases htemplate : templates r with
        | none =>
          rw [h.outside r htemplate hrName hrTable] at hraw
          cases hraw
        | some u =>
          refine ⟨u, rfl, ?_⟩
          rw [(h.resolved r u raw htemplate hraw).1, isSome_text?_fill] at htext
          exact htext
  · refine acyclic_of_acc fun k => ?_
    cases htemplate : templates k with
    | some v =>
      obtain ⟨w, hw⟩ := hall k v htemplate
      exact (h.resolved k v w htemplate hw).2.2
    | none =>
      -- What is no merged key refers to none.
      refine ⟨k, ?_⟩
      rintro r ⟨v, hv, -⟩
      rw [htemplate] at hv
      cases hv

/-- What the loop has resolved is a solution. -/
theorem Settled.solution (h : Settled rule name table templates s)
    (hempty : s.pending.entries = []) : Solution rule name table templates s.resolved.get? := by
  refine ⟨h.name, h.table, fun k hkName hkTable => ?_⟩
  cases htemplate : templates k with
  | none => exact h.outside k htemplate hkName hkTable
  | some v =>
    cases hresolved : s.resolved.get? k with
    | some w => rw [(h.resolved k v w htemplate hresolved).1, Option.map_some]
    | none =>
      have hmem := OrderedDict.mem_of_get? (h.cover k v htemplate hresolved)
      rw [hempty] at hmem
      cases hmem

/-- **There is no other solution.** -/
theorem Solution.unique {ρ ρ' : PyStr → Option Value} {pending : Table}
    (hacyclic : Acyclic (Refers pending.get?)) (h : Solution rule name table pending.get? ρ)
    (h' : Solution rule name table pending.get? ρ') : ρ = ρ' := by
  have hout : ∀ k, k ∉ pending.keys → ρ k = ρ' k := by
    intro k hk
    by_cases hkName : k = nameKey
    · rw [hkName, h.name, h'.name]
    · by_cases hkTable : k = tableKey
      · rw [hkTable, h.table, h'.table]
      · rw [h.other k hkName hkTable, h'.other k hkName hkTable, OrderedDict.get?_eq_none.mpr hk]
        rfl
  refine eq_of_step hacyclic (List.finite_toSet pending.keys) hout fun k hk hrefers => ?_
  by_cases hkName : k = nameKey
  · rw [hkName, h.name, h'.name]
  · by_cases hkTable : k = tableKey
    · rw [hkTable, h.table, h'.table]
    · obtain ⟨v, hv⟩ := OrderedDict.mem_keys.mp hk
      rw [h.other k hkName hkTable, h'.other k hkName hkTable, hv, Option.map_some,
        Option.map_some, fill_congr v fun r hr => ?_]
      by_cases hr' : r ∈ pending.keys
      · exact hrefers r ⟨v, hv, hr, OrderedDict.mem_keys.mp hr'⟩
      · exact hout r hr'

end Loop

/-! ### An entry -/

theorem get?_of_perm {d d' : Table} (h : d.entries.Perm d'.entries) : d.get? = d'.get? := by
  funext k
  cases hk : d.get? k with
  | some v => exact (OrderedDict.get?_of_mem (h.mem_iff.mp (OrderedDict.mem_of_get? hk))).symm
  | none =>
    cases hk' : d'.get? k with
    | none => rfl
    | some v =>
      rw [OrderedDict.get?_of_mem (h.mem_iff.mpr (OrderedDict.mem_of_get? hk'))] at hk
      cases hk

/-- **The expansion of a tracker entry.**  The loop never runs out of passes with keys left; it
succeeds exactly where every named key has a text and no chain of references is cyclic; and then the
resolved map is the only solution, whatever the order of the keys. -/
theorem expansion_spec (rule : CharRule) {raw defaultsDoc defaults : Table} {name table : Value}
    {direction : Direction} (hname : raw.get? nameKey = some name)
    (htable : raw.get? tableKey = some table) (hdefaults : defaultsOf defaultsDoc = .ok defaults)
    (hdirection : directionOf (directionValue raw defaults) = some direction) :
    let merged := pendingOf raw direction defaults
    expandEntry rule raw defaultsDoc = expansion rule name table merged ∧
    ∀ pending : Table, pending.entries.Perm merged.entries →
      (∀ s, expansion rule name table pending = .ok s → s.pending.entries = []) ∧
      ((∃ s, expansion rule name table pending = .ok s) ↔ Resolvable name table merged.get?) ∧
      ∀ s, expansion rule name table pending = .ok s →
        ∀ ρ, Solution rule name table merged.get? ρ ↔ ρ = s.resolved.get? := by
  intro merged
  refine ⟨?_, fun pending hperm => ?_⟩
  · rw [expandEntry, hname]
    dsimp only
    rw [htable]
    dsimp only
    rw [hdefaults]
    show (match directionOf (directionValue raw defaults) with
      | none => _
      | some direction => _) = _
    rw [hdirection]
  · -- Only the entries matter, not the order in which they are tried.
    have hget : pending.get? = merged.get? := get?_of_perm hperm
    have hmergedName : merged.get? nameKey = none :=
      (OrderedDict.get?_filterKeys _ _ _).trans (if_neg (by decide))
    have hmergedTable : merged.get? tableKey = none :=
      (OrderedDict.get?_filterKeys _ _ _).trans (if_neg (by decide))
    have hseed : Settled rule name table merged.get? { resolved := seed name table, pending } := by
      rw [← hget]
      exact settled_seed (by rw [hget, hmergedName]) (by rw [hget, hmergedTable])
    -- A pass that ends leaves nothing pending, and what it settled is forced.
    have hrun : ∀ s, expansion rule name table pending = .ok s →
        Settled rule name table merged.get? s ∧ s.pending.entries = [] :=
      fun s hs => passes_settled hseed (Nat.lt_add_of_pos_right (by norm_num)) hs
    refine ⟨fun s hs => (hrun s hs).2, ⟨?_, ?_⟩, fun s hs ρ => ?_⟩
    · rintro ⟨s, hs⟩
      exact (hrun s hs).1.resolvable (hrun s hs).2
    · intro hresolvable
      exact exists_passes hresolvable hseed (Nat.lt_add_of_pos_right (by norm_num))
    · obtain ⟨hsettled, hempty⟩ := hrun s hs
      have hsolution := hsettled.solution hempty
      constructor
      · exact fun h => h.unique (hsettled.resolvable hempty).acyclic hsolution
      · rintro rfl
        exact hsolution

/-- The rules of ASCII alone. -/
def asciiRule : CharRule := { isDigit := fun _ => false, upper := fun c => [c] }

def jointState : Table :=
  update ∅ [(nameKey, .str (PyStr.ofString "joint_state")), (tableKey, .str (PyStr.ofString "T"))]

/-- Defaults whose second key is named by the first. -/
def classDefaults : Table :=
  update ∅ [(PyStr.ofString "defaults", .dict
    [(PyStr.ofString "traits", .list [.str (PyStr.ofString "%class%Traits")]),
      (PyStr.ofString "class", .str (PyStr.ofString "%name_CamelCase%"))])]

/-- The defaults of a joint state are resolvable, for the loop resolves them. -/
theorem jointState_resolvable :
    ∃ defaults, defaultsOf classDefaults = .ok defaults ∧
      Resolvable (.str (PyStr.ofString "joint_state")) (.str (PyStr.ofString "T"))
        (pendingOf jointState .pull defaults).get? := by
  refine ⟨_, rfl, ?_⟩
  have hspec := @expansion_spec asciiRule jointState classDefaults _ _ _ .pull rfl rfl rfl
    (by decide)
  exact (hspec.2 _ (List.Perm.refl _)).2.1.mp ⟨_, rfl⟩

end ManifestResolution
