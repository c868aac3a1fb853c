/-
Reads, writes and snapshots of an optional tensor group.

A group keeps a mark of absence beside the slots of its tensors.  A write clears the mark and then
stores a value that its tensor type has validated; marking the group absent leaves the slots.  A
snapshot of a present group writes a copy of every set slot into a new group.

* `TensorGroup.getItem`, `TensorGroup.setItem`, `TensorGroup.createSnapshot` — the operations;
* `TensorGroup.setItem_cases` — what a write does;
* `TensorGroup.createSnapshot_present` — the snapshot has the same slots, and is absent when none
  of them is set;
* `TensorGroup.intact_run_iff` — which runs keep what can be read.
-/
import IsaacTeleop.TensorGroup

/-! ### Values -/

/-- The values of a tensor type: `validate_value`, with the text of its `TypeError`. -/
class TensorValues (τ V : Type) where
  validateValue : τ → V → Option String

/-- The ways to copy a value. -/
structure Copying (V : Type) where
  /-- a callable `create_snapshot` of the value -/
  createSnapshot : V → Option V
  supportsDlpack : V → Bool
  /-- `wp.clone` of a warp array, unless it raises -/
  warpClone : V → Option V
  /-- the method `clone`, unless it is missing or raises a `TypeError` -/
  clone : V → Option V
  /-- the method `copy`, as `clone` -/
  copy : V → Option V
  deepcopy : V → V

namespace Copying

variable {V : Type} (copying : Copying V)

/-- `_dlpack_value_snapshot`; `none` is `_SNAPSHOT_NOT_HANDLED`. -/
def dlpackValueSnapshot (value : V) : Option V :=
  match copying.warpClone value with
  | some copied => some copied
  | none =>
    match copying.clone value with
    | some copied => some copied
    | none => copying.copy value

/-- `_value_snapshot` -/
def valueSnapshot (value : V) : V :=
  match copying.createSnapshot value with
  | some copied => copied
  | none =>
    if copying.supportsDlpack value then
      match copying.dlpackValueSnapshot value with
      | some copied => copied
      | none => copying.deepcopy value
    else copying.deepcopy value

/-- A copy has the content of its original. -/
structure Faithful : Prop where
  createSnapshot : ∀ value copied, copying.createSnapshot value = some copied → copied = value
  warpClone : ∀ value copied, copying.warpClone value = some copied → copied = value
  clone : ∀ value copied, copying.clone value = some copied → copied = value
  copy : ∀ value copied, copying.copy value = some copied → copied = value
  deepcopy : ∀ value, copying.deepcopy value = value

variable {copying}

theorem Faithful.dlpackValueSnapshot (h : copying.Faithful) {value copied : V}
    (hcopied : copying.dlpackValueSnapshot value = some copied) : copied = value := by
  rw [Copying.dlpackValueSnapshot] at hcopied
  split at hcopied
  · rename_i hwarp
    exact h.warpClone value copied (hwarp.trans hcopied)
  · split at hcopied
    · rename_i hclone
      exact h.clone value copied (hclone.trans hcopied)
    · exact h.copy value copied hcopied

theorem Faithful.valueSnapshot (h : copying.Faithful) (value : V) :
    copying.valueSnapshot value = value := by
  rw [Copying.valueSnapshot]
  split
  · rename_i hcopied
    exact h.createSnapshot value _ hcopied
  · split
    · split
      · rename_i hcopied
        exact h.dlpackValueSnapshot hcopied
      · exact h.deepcopy value
    · exact h.deepcopy value

end Copying

/-! ### The operations of a group -/

/-- The place of a Python index in a list of length `n`. -/
def pyIndex (n : ℕ) (index : ℤ) : Option ℕ :=
  let i := if index < 0 then index + n else index
  if 0 ≤ i ∧ i < n then some i.toNat else none

theorem pyIndex_lt {n i : ℕ} {index : ℤ} (h : pyIndex n index = some i) : i < n := by
  simp only [pyIndex] at h
  generalize (if index < 0 then index + n else index) = j at h
  split at h
  · obtain rfl := Option.some_inj.mp h
    omega
  · cases h

theorem pyIndex_natCast {n i : ℕ} (h : i < n) : pyIndex n (i : ℤ) = some i := by
  have hnonneg : ¬ (i : ℤ) < 0 := by omega
  simp only [pyIndex, if_neg hnonneg]
  rw [if_pos (by omega), Int.toNat_natCast]

inductive ReadError
  /-- `ValueError`: the group, by name, is absent -/
  | absent (group : String)
  | indexError
  /-- `ValueError`: the tensor has not been set -/
  | unset (tensor : String)
  /-- `RuntimeError`: the value does not validate any more -/
  | corrupted (tensor message : String)
  deriving DecidableEq

inductive WriteError
  | indexError
  | typeError (message : String)
  deriving DecidableEq

namespace TensorGroup

variable {τ V : Type} [TensorValues τ V]

open TensorValues (validateValue)

/-- `self._tensors[index]`: the place, the type and the value of a tensor. -/
def tensorAt (self : TensorGroup τ V) (index : ℤ) : Option (ℕ × τ × Option V) :=
  match pyIndex self.tensors.length index with
  | none => none
  | some i => (self.groupType.types.zip self.tensors)[i]?.map fun tensor => (i, tensor)

/-- `__getitem__`; `validation` is `Tensor._runtime_validation_enabled`. -/
def getItem [TensorType τ] (validation : Bool) (self : TensorGroup τ V) (index : ℤ) :
    Except ReadError V :=
  if self.isNone then .error (.absent self.groupType.name)
  else
    match self.tensorAt index with
    | none => .error .indexError
    | some (_, type, none) => .error (.unset (TensorType.name type))
    | some (_, type, some value) =>
      if validation then
        match validateValue type value with
        | some message => .error (.corrupted (TensorType.name type) message)
        | none => .ok value
      else .ok value

/-- `_is_none = False` -/
def marked (self : TensorGroup τ V) : TensorGroup τ V := { self with absent := false }

/-- A value in a slot. -/
def store (self : TensorGroup τ V) (i : ℕ) (value : V) : TensorGroup τ V where
  groupType := self.groupType
  required := self.required
  absent := self.absent
  tensors := self.tensors.set i (some value)
  unwrapped := self.unwrapped
  length_tensors := List.length_set.trans self.length_tensors

/-- `__setitem__`: what it raises, and the group after it. -/
def setItem (self : TensorGroup τ V) (index : ℤ) (value : V) :
    Except WriteError Unit × TensorGroup τ V :=
  -- The mark is cleared before the index is looked up and the value is validated.
  match self.marked.tensorAt index with
  | none => (.error .indexError, self.marked)
  | some (i, type, _) =>
    match validateValue type value with
    | some message => (.error (.typeError message), self.marked)
    | none => (.ok (), self.marked.store i value)

/-- `set_none` of an optional group -/
def setNone (self : TensorGroup τ V) : TensorGroup τ V := { self with absent := true }

/-- The loop of `create_snapshot` over the slots from place `i` on. -/
def snapshotLoop (copying : Copying V) :
    ℕ → List (Option V) → TensorGroup τ V → Except WriteError (TensorGroup τ V)
  | _, [], newGroup => .ok newGroup
  | i, none :: rest, newGroup => snapshotLoop copying (i + 1) rest newGroup
  | i, some value :: rest, newGroup =>
    match newGroup.setItem i (copying.valueSnapshot value) with
    | (.error error, _) => .error error
    | (.ok _, newGroup) => snapshotLoop copying (i + 1) rest newGroup

def createSnapshot (copying : Copying V) (self : TensorGroup τ V) :
    Except WriteError (TensorGroup τ V) :=
  let newGroup := new self.required self.groupType
  if self.isNone then .ok newGroup else snapshotLoop copying 0 self.tensors newGroup

/-! ### Writes -/

/-- The index is in range and the value is valid there. -/
def accepts (groupType : TensorGroupType τ) (index : ℤ) (value : V) : Bool :=
  match pyIndex groupType.types.length index with
  | none => false
  | some i =>
    match groupType.types[i]? with
    | none => false
    | some type => (validateValue type value).isNone

omit [TensorValues τ V] in
/-- A place in range has its type and its value. -/
theorem tensorAt_some (self : TensorGroup τ V) {index : ℤ} {i : ℕ}
    (hindex : pyIndex self.tensors.length index = some i) (hi : i < self.tensors.length) :
    ∃ type value, self.groupType.types[i]? = some type ∧ self.tensors[i]? = some value ∧
      self.tensorAt index = some (i, type, value) := by
  have hi' : i < self.groupType.types.length := self.length_tensors ▸ hi
  refine ⟨self.groupType.types[i], self.tensors[i], List.getElem?_eq_getElem hi',
    List.getElem?_eq_getElem hi, ?_⟩
  rw [tensorAt, hindex]
  simp [hi, hi']

/-- **What a write does**: it stores a value that is accepted; else the group is only marked. -/
theorem setItem_cases (self : TensorGroup τ V) (index : ℤ) (value : V) :
    (accepts self.groupType index value = true ∧ ∃ i type, i < self.tensors.length ∧
        self.groupType.types[i]? = some type ∧ validateValue type value = none ∧
        self.setItem index value = (.ok (), self.marked.store i value)) ∨
      (accepts self.groupType index value = false ∧
        ∃ error, self.setItem index value = (.error error, self.marked)) := by
  rw [accepts, ← self.length_tensors]
  cases hindex : pyIndex self.tensors.length index with
  | none =>
    right
    refine ⟨rfl, .indexError, ?_⟩
    have hnone : self.marked.tensorAt index = none := by
      simp only [tensorAt, marked, hindex]
    rw [setItem, hnone]
  | some i =>
    obtain ⟨type, slot, htype, -, htensor⟩ := tensorAt_some self.marked hindex
      (pyIndex_lt hindex)
    have htype' : self.groupType.types[i]? = some type := htype
    simp only [htype', setItem, htensor]
    cases hvalid : validateValue type value with
    | none => exact .inl ⟨rfl, i, type, pyIndex_lt hindex, htype', hvalid, rfl⟩
    | some message => exact .inr ⟨rfl, .typeError message, rfl⟩

/-- Every value that is set is valid. -/
def Sound (self : TensorGroup τ V) : Prop :=
  ∀ (i : ℕ) (type : τ) (value : V), self.groupType.types[i]? = some type →
    self.tensors[i]? = some (some value) → validateValue type value = none

theorem Sound.new (required : Bool) (groupType : TensorGroupType τ) :
    Sound (TensorGroup.new required groupType : TensorGroup τ V) := by
  intro i type value _ hvalue
  have hmem : some value ∈ groupType.types.map fun _ => (none : Option V) :=
    List.mem_of_getElem? hvalue
  simp at hmem

theorem Sound.store {self : TensorGroup τ V} (h : self.Sound) {i : ℕ} {type : τ} {value : V}
    (htype : self.groupType.types[i]? = some type) (hvalid : validateValue type value = none) :
    (self.store i value).Sound := by
  intro j type' value' htype' hvalue'
  by_cases hj : i = j
  · subst hj
    have hsame : type' = type := Option.some_inj.mp (htype'.symm.trans htype)
    have hstored : value' = value := by
      have hslot := hvalue'
      simp only [TensorGroup.store, List.getElem?_set_self'] at hslot
      rw [Option.map_eq_map, Option.map_eq_some_iff] at hslot
      obtain ⟨_, -, heq⟩ := hslot
      exact (Option.some_inj.mp heq).symm
    rw [hsame, hstored]
    exact hvalid
  · simp only [TensorGroup.store, List.getElem?_set_ne hj] at hvalue'
    exact h j type' value' htype' hvalue'

/-! ### Snapshots -/

/-- The loop fills the slots from place `i` on. -/
theorem snapshotLoop_spec {copying : Copying V} (hcopy : copying.Faithful) (rest : List (Option V)) :
    ∀ (filled : List (Option V)) (newGroup : TensorGroup τ V),
      newGroup.tensors = filled ++ rest.map (fun _ => none) →
      (∀ i type value, newGroup.groupType.types[filled.length + i]? = some type →
        rest[i]? = some (some value) → validateValue type value = none) →
      ∃ snapshot, snapshotLoop copying filled.length rest newGroup = .ok snapshot ∧
        snapshot.groupType = newGroup.groupType ∧ snapshot.required = newGroup.required ∧
        snapshot.absent = (newGroup.absent && rest.all Option.isNone) ∧
        snapshot.tensors = filled ++ rest := by
  induction rest with
  | nil =>
    intro filled newGroup htensors _
    exact ⟨newGroup, rfl, rfl, rfl, by simp, by simpa using htensors⟩
  | cons slot rest ih =>
    intro filled newGroup htensors hvalid
    have hrest : ∀ i type value, newGroup.groupType.types[filled.length + 1 + i]? = some type →
        rest[i]? = some (some value) → validateValue type value = none := by
      intro i type value htype hvalue
      refine hvalid (i + 1) type value ?_ hvalue
      rw [← htype]
      congr 1
      omega
    cases slot with
    | none =>
      -- The slot stays unset.
      have hnext : newGroup.tensors = (filled ++ [none]) ++ rest.map fun _ => none := by
        rw [htensors]
        simp
      obtain ⟨snapshot, hloop, htype, hrequired, habsent, hslots⟩ :=
        ih (filled ++ [none]) newGroup hnext (by simpa using hrest)
      refine ⟨snapshot, ?_, htype, hrequired, by simpa using habsent, by simpa using hslots⟩
      rw [snapshotLoop]
      simpa using hloop
    | some value =>
      -- The copy of a valid value is accepted at its place.
      have hlt : filled.length < newGroup.tensors.length := by
        rw [htensors]
        simp
      have hplace : pyIndex newGroup.tensors.length (filled.length : ℤ) = some filled.length :=
        pyIndex_natCast hlt
      obtain ⟨type, slot, htype, -, htensor⟩ := tensorAt_some newGroup.marked hplace hlt
      have hok : newGroup.setItem (filled.length : ℤ) (copying.valueSnapshot value) =
          (.ok (), newGroup.marked.store filled.length value) := by
        rw [setItem, htensor, hcopy.valueSnapshot]
        simp only [hvalid 0 type value htype rfl]
      have hnext : (newGroup.marked.store filled.length value).tensors =
          (filled ++ [some value]) ++ rest.map fun _ => none := by
        simp [store, marked, htensors]
      obtain ⟨snapshot, hloop, htype', hrequired, habsent, hslots⟩ :=
        ih (filled ++ [some value]) (newGroup.marked.store filled.length value) hnext
          (by simpa [store, marked] using hrest)
      refine ⟨snapshot, ?_, htype', hrequired, ?_, by simpa using hslots⟩
      · rw [snapshotLoop, hok]
        simpa using hloop
      · simpa [store, marked] using habsent

/-- **The snapshot of a present group** has its slots; it is marked present by the first slot that
is set. -/
theorem createSnapshot_present {copying : Copying V} (hcopy : copying.Faithful)
    {self : TensorGroup τ V} (h : self.Sound) (hpresent : self.isNone = false) :
    self.createSnapshot copying =
      .ok { self with absent := self.tensors.all Option.isNone } := by
  have hinner : self.groupType.innerType = self.groupType := by
    rw [TensorGroupType.innerType, ← self.unwrapped]
  -- The copy starts with every slot unset, which is where the loop starts.
  have hunset : (TensorGroup.new self.required self.groupType : TensorGroup τ V).tensors =
      [] ++ self.tensors.map fun _ => none := by
    simp [TensorGroup.new, hinner, List.map_const', self.length_tensors]
  obtain ⟨snapshot, hloop, htype, hrequired, habsent, hslots⟩ :=
    snapshotLoop_spec hcopy self.tensors [] (TensorGroup.new self.required self.groupType) hunset
      (by
        intro i type value htype hvalue
        refine h i type value ?_ hvalue
        rw [← htype]
        simp [TensorGroup.new])
  rw [createSnapshot, hpresent]
  rw [List.length_nil] at hloop
  simp only [Bool.false_eq_true, if_false, hloop]
  obtain ⟨groupType, required, absent, tensors, unwrapped, hlength⟩ := snapshot
  have htype' : groupType = self.groupType := htype.trans hinner
  have hslots' : tensors = self.tensors := hslots
  have hrequired' : required = self.required := hrequired
  have habsent' : absent = self.tensors.all Option.isNone := by
    simpa [TensorGroup.new] using habsent
  subst htype' hslots' hrequired' habsent'
  rfl

/-! ### What can be read -/

section Reads

variable [TensorType τ]

/-- Two groups with the same `is_none` and the same result or error of every read. -/
def SameReads (self other : TensorGroup τ V) : Prop :=
  other.isNone = self.isNone ∧
    ∀ validation index, other.getItem validation index = self.getItem validation index

/-- Two present groups with the same slots. -/
theorem SameReads.of_tensors {self other : TensorGroup τ V} (hself : self.isNone = false)
    (hother : other.isNone = false) (htype : other.groupType = self.groupType)
    (htensors : other.tensors = self.tensors) : SameReads self other := by
  refine ⟨hother.trans hself.symm, fun validation index => ?_⟩
  simp only [getItem, tensorAt, hself, hother, htype, htensors]

/-- Two absent groups. -/
theorem SameReads.of_absent {self other : TensorGroup τ V} (hself : self.isNone = true)
    (hother : other.isNone = true) (hname : other.groupType.name = self.groupType.name) :
    SameReads self other := by
  refine ⟨hother.trans hself.symm, fun validation index => ?_⟩
  simp only [getItem, hself, hother, hname, if_true]

omit [TensorValues τ V] [TensorType τ] in
theorem marked_isNone (self : TensorGroup τ V) : self.marked.isNone = false := by
  rw [isNone, marked]
  exact ite_self false

/-- **A write that raises** leaves what can be read iff the group was present. -/
theorem sameReads_marked_iff (self : TensorGroup τ V) :
    SameReads self self.marked ↔ self.isNone = false := by
  constructor
  · intro h
    exact h.1.symm.trans self.marked_isNone
  · intro hpresent
    exact SameReads.of_tensors hpresent self.marked_isNone rfl rfl

/-- **A snapshot** of a group with a slot set, or of an absent one, reads as its original. -/
theorem createSnapshot_sameReads {copying : Copying V} (hcopy : copying.Faithful)
    {self : TensorGroup τ V} (hoptional : self.required = false) (h : self.Sound)
    (hset : self.isNone = false → self.tensors.all Option.isNone = false) :
    ∃ snapshot, self.createSnapshot copying = .ok snapshot ∧ SameReads self snapshot := by
  cases hnone : self.isNone with
  | true =>
    refine ⟨TensorGroup.new self.required self.groupType, ?_, ?_⟩
    · rw [createSnapshot, if_pos hnone]
    · refine SameReads.of_absent hnone ?_ rfl
      simp [isNone, TensorGroup.new, hoptional]
  | false =>
    refine ⟨_, createSnapshot_present hcopy h hnone, ?_⟩
    refine SameReads.of_tensors hnone ?_ rfl rfl
    simp [isNone, hset hnone]

end Reads

/-! ### Runs -/

/-- The calls on a group. -/
inductive Operation (V : Type)
  | write (index : ℤ) (value : V)
  | setNone
  | createSnapshot

/-- The group after a call. -/
def perform (self : TensorGroup τ V) : Operation V → TensorGroup τ V
  | .write index value => (self.setItem index value).2
  | .setNone => self.setNone
  | .createSnapshot => self

def run (self : TensorGroup τ V) (operations : List (Operation V)) : TensorGroup τ V :=
  operations.foldl perform self

/-- No write of the run is rejected while the group is absent. -/
def Guarded (groupType : TensorGroupType τ) (operations : List (Operation V)) : Prop :=
  ∀ before index value after, operations = before ++ .write index value :: after →
    accepts groupType index value = false →
      (run (new false groupType) before).isNone = false

/-- The state of an optional group in any run. -/
structure Inv (groupType : TensorGroupType τ) (group : TensorGroup τ V) : Prop where
  type : group.groupType = groupType.innerType
  optional : group.required = false
  sound : group.Sound

theorem accepts_innerType (groupType : TensorGroupType τ) (index : ℤ) (value : V) :
    accepts groupType.innerType index value = accepts groupType index value := rfl

theorem Inv.perform {groupType : TensorGroupType τ} {self : TensorGroup τ V}
    (h : Inv groupType self) (operation : Operation V) :
    Inv groupType (self.perform operation) := by
  cases operation with
  | setNone => exact ⟨h.type, h.optional, h.sound⟩
  | createSnapshot => exact h
  | write index value =>
    rw [TensorGroup.perform]
    rcases self.setItem_cases index value with ⟨-, i, type, -, htype, hvalid, hset⟩ | ⟨-, error, hset⟩
    · rw [hset]
      have hmarked : self.marked.Sound := h.sound
      exact ⟨h.type, h.optional, hmarked.store htype hvalid⟩
    · rw [hset]
      exact ⟨h.type, h.optional, h.sound⟩

theorem Inv.run (groupType : TensorGroupType τ) (operations : List (Operation V)) :
    Inv groupType (run (new false groupType : TensorGroup τ V) operations) := by
  induction operations using List.reverseRecOn with
  | nil => exact ⟨rfl, rfl, Sound.new false groupType⟩
  | append_singleton operations operation ih =>
    rw [TensorGroup.run, List.foldl_append]
    exact ih.perform operation

/-- A present group has a slot set, as long as no write is rejected while it is absent. -/
theorem Guarded.set {groupType : TensorGroupType τ} {operations : List (Operation V)}
    (h : Guarded groupType operations)
    (hpresent : (run (new false groupType : TensorGroup τ V) operations).isNone = false) :
    (run (new false groupType : TensorGroup τ V) operations).tensors.all Option.isNone = false := by
  induction operations using List.reverseRecOn with
  | nil => cases hpresent
  | append_singleton operations operation ih =>
    have hbefore : Guarded groupType operations := by
      intro before index value after hsplit
      refine h before index value (after ++ [operation]) ?_
      rw [hsplit]
      simp
    have hinv := Inv.run groupType operations
    have hlast := h operations
    specialize ih hbefore
    simp only [TensorGroup.run, List.foldl_append, List.foldl_cons, List.foldl_nil]
      at hpresent ih hinv hlast ⊢
    generalize operations.foldl TensorGroup.perform (new false groupType) = self at *
    cases operation with
    | createSnapshot => exact ih hpresent
    | setNone =>
      simp [TensorGroup.perform, TensorGroup.setNone, isNone, hinv.optional] at hpresent
    | write index value =>
      rw [TensorGroup.perform]
      rcases self.setItem_cases index value with
        ⟨-, i, type, hi, -, -, hset⟩ | ⟨hrejected, error, hset⟩
      · -- The slot that was written is set.
        rw [hset, ← Bool.not_eq_true, List.all_eq_true]
        intro hall
        have hmem : some value ∈ (self.marked.store i value).tensors := List.mem_set hi _
        exact absurd (hall _ hmem) Bool.false_ne_true
      · rw [hset]
        rw [hinv.type, accepts_innerType] at hrejected
        exact ih (hlast index value [] rfl hrejected)

/-- What a call must leave as it was. -/
def Intact [TensorType τ] (copying : Copying V) (self : TensorGroup τ V) : Operation V → Prop
  | .write index value => ∀ error, (self.setItem index value).1 = .error error →
      SameReads self (self.setItem index value).2
  | .setNone => True
  | .createSnapshot =>
      ∃ snapshot, self.createSnapshot copying = .ok snapshot ∧ SameReads self snapshot

/-- **Every call of a run is harmless iff no write is rejected while the group is absent.** -/
theorem intact_run_iff [TensorType τ] {copying : Copying V} (hcopy : copying.Faithful)
    (groupType : TensorGroupType τ) (operations : List (Operation V)) :
    (∀ before operation after, operations = before ++ operation :: after →
        Intact copying (run (new false groupType) before) operation) ↔
      Guarded groupType operations := by
  constructor
  · -- A refused write marks the group present, which shows unless it was present before.
    intro h before index value after hsplit hrejected
    have hintact := h before (.write index value) after hsplit
    have hinv : Inv groupType (run (new false groupType) before : TensorGroup τ V) :=
      Inv.run groupType before
    rcases setItem_cases (run (new false groupType) before) index value with
      ⟨haccepted, -⟩ | ⟨-, error, hset⟩
    · rw [hinv.type, accepts_innerType, hrejected] at haccepted
      cases haccepted
    · have hsame := hintact error (by rw [hset])
      rw [hset] at hsame
      exact (sameReads_marked_iff _).mp hsame
  · -- Without such a write no operation loses what was read.
    intro h before operation after hsplit
    have hinv : Inv groupType (run (new false groupType) before : TensorGroup τ V) :=
      Inv.run groupType before
    cases operation with
    | setNone => trivial
    | createSnapshot =>
      refine createSnapshot_sameReads hcopy hinv.optional hinv.sound fun hpresent => ?_
      have hbefore : Guarded groupType before := by
        intro earlier index value later hearlier
        refine h earlier index value (later ++ .createSnapshot :: after) ?_
        rw [hsplit, hearlier]
        simp
      exact hbefore.set hpresent
    | write index value =>
      intro error herror
      rcases setItem_cases (run (new false groupType) before) index value with
        ⟨-, i, type, -, -, -, hset⟩ | ⟨hrejected, error', hset⟩
      · rw [hset] at herror
        cases herror
      · rw [hset]
        rw [hinv.type, accepts_innerType] at hrejected
        exact (sameReads_marked_iff _).mpr (h before index value after hsplit hrejected)

end TensorGroup

/-! ### Scalars -/

/-- The scalar tensor types, by name. -/
inductive ScalarType
  | float (name : String)
  | int (name : String)
  | bool (name : String)
  deriving DecidableEq

inductive PyScalar
  | float (value : ℚ)
  | int (value : ℤ)
  | bool (value : Bool)
  deriving DecidableEq

/-- `type(value).__name__` -/
def PyScalar.typeName : PyScalar → String
  | float _ => "float"
  | int _ => "int"
  | bool _ => "bool"

namespace ScalarType

def name : ScalarType → String
  | float name | int name | bool name => name

/-- The class of the values that validate. -/
def valueName : ScalarType → String
  | float _ => "float"
  | int _ => "int"
  | bool _ => "bool"

def cls : ScalarType → ℕ
  | float _ => 0
  | int _ => 1
  | bool _ => 2

instance : TensorType ScalarType where
  name := name
  cls := cls
  checkInstanceCompatibility _ _ := true

instance : TensorValues ScalarType PyScalar where
  validateValue type value :=
    if value.typeName = type.valueName then none
    else some ("Expected " ++ type.valueName ++ " for '" ++ type.name ++ "', got " ++ value.typeName)

end ScalarType

/-- Values without a copying method of their own. -/
def Copying.plain (V : Type) : Copying V where
  createSnapshot _ := none
  supportsDlpack _ := false
  warpClone _ := none
  clone _ := none
  copy _ := none
  deepcopy value := value

theorem Copying.plain_faithful (V : Type) : (Copying.plain V).Faithful where
  createSnapshot _ _ h := by cases h
  warpClone _ _ h := by cases h
  clone _ _ h := by cases h
  copy _ _ h := by cases h
  deepcopy _ := rfl

namespace TensorGroup

/-- A group of one float. -/
def oneFloat : TensorGroupType ScalarType := { name := "grip", types := [.float "value"] }

/-- A write that is accepted, and one that is out of range. -/
def acceptedThenRejected : List (Operation PyScalar) := [.write 0 (.float 1), .write 5 (.float 2)]

theorem rejected_while_present : (Copying.plain PyScalar).Faithful ∧
    SameReads (run (new false oneFloat) [.write 0 (.float (1 : ℚ))])
      (run (new false oneFloat) acceptedThenRejected) := by
  refine ⟨Copying.plain_faithful PyScalar, ?_⟩
  have hguarded : Guarded oneFloat acceptedThenRejected := by
    intro before index value after hsplit hrejected
    rcases before with _ | ⟨first, _ | ⟨second, rest⟩⟩
    · -- The first write is accepted.
      obtain ⟨hwrite, -⟩ := List.cons.inj hsplit
      obtain ⟨rfl, rfl⟩ := Operation.write.inj hwrite
      cases hrejected
    · obtain ⟨rfl, -⟩ := List.cons.inj hsplit
      rfl
    · have hlength := congrArg List.length hsplit
      simp [acceptedThenRejected] at hlength
  have hintact := (intact_run_iff (Copying.plain_faithful PyScalar) oneFloat
    acceptedThenRejected).mpr hguarded [.write 0 (.float 1)] (.write 5 (.float 2)) [] rfl
  exact hintact .indexError rfl

theorem rejected_write_marks_present :
    ¬ Intact (Copying.plain PyScalar) (run (new false oneFloat) []) (.write 0 (.int 1)) ∧
      ¬ Intact (Copying.plain PyScalar) (run (new false oneFloat) [.write 0 (.int 1)])
        .createSnapshot := by
  constructor
  · intro h
    have hnone := (h _ rfl).1
    cases hnone
  · rintro ⟨snapshot, hsnapshot, hnone, -⟩
    obtain rfl := Except.ok.inj hsnapshot
    cases hnone

end TensorGroup
