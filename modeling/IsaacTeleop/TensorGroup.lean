/-
Tensor groups, their types, and the computation of one retargeter.

A group type lists tensor types and says whether the group may be absent.  A
group of values stores the unwrapped type; a plain `TensorGroup` is never
absent.  `Retargeter.compute` fills the missing optional inputs, validates the
inputs against the declared ones and hands them to the subclass's function.

* `TensorGroupType.checkCompatibility_ok_iff` — when the check of two group types passes;
* `Retargeter.checkedInputs_of_admissible`, `Retargeter.admissible_of_checkedInputs` — which
  inputs pass both gates of `compute`; the required ones reach the function as they are.
-/
import IsaacTeleop.ComputeContext
import IsaacTeleop.OrderedDict

/-- The methods of a `TensorType` subclass that the type checks use. -/
class TensorType (τ : Type) where
  name : τ → String
  /-- `type(self)`, compared by identity -/
  cls : τ → ℕ
  /-- `_check_instance_compatibility`, called on two instances of one class -/
  checkInstanceCompatibility : τ → τ → Bool

/-- `TensorType.is_compatible_with` -/
def TensorType.isCompatibleWith {τ : Type} [TensorType τ] (self other : τ) : Bool :=
  if cls self ≠ cls other then false else checkInstanceCompatibility self other

/-- A group type; the optional wrapper keeps the name and the tensor types. -/
structure TensorGroupType (τ : Type) where
  name : String
  types : List τ
  isOptional : Bool := false
deriving DecidableEq, Repr

/-- Why `check_compatibility` raises a `ValueError`. -/
inductive CompatibilityError (τ : Type) where
  /-- an optional output feeds a required input -/
  | optionalToRequired (output input : String)
  | sizeMismatch (expected got : ℕ)
  | tensorMismatch (index : ℕ) (expected got : τ)
deriving DecidableEq, Repr

namespace TensorGroupType

variable {τ : Type}

/-- `inner_type`: the unwrapped type. -/
def innerType (self : TensorGroupType τ) : TensorGroupType τ := { self with isOptional := false }

@[simp] theorem innerType_isOptional (self : TensorGroupType τ) :
    self.innerType.isOptional = false := rfl

@[simp] theorem innerType_types (self : TensorGroupType τ) : self.innerType.types = self.types :=
  rfl

@[simp] theorem innerType_innerType (self : TensorGroupType τ) :
    self.innerType.innerType = self.innerType := rfl

/-- `OptionalType` -/
def optionalType (self : TensorGroupType τ) : TensorGroupType τ := { self with isOptional := true }

variable [TensorType τ]

/-- The loop over the tensors of two groups of one size, from index `i`. -/
def checkTensors : ℕ → List τ → List τ → Except (CompatibilityError τ) Unit
  | i, tensorType :: rest, otherType :: others =>
    if TensorType.isCompatibleWith tensorType otherType then checkTensors (i + 1) rest others
    else .error (.tensorMismatch i tensorType otherType)
  | _, _, _ => .ok ()

/-- `check_compatibility`: `self` is the expected input type, `other` the actual
output type. -/
def checkCompatibility (self other : TensorGroupType τ) : Except (CompatibilityError τ) Unit :=
  if other.isOptional && !self.isOptional then
    .error (.optionalToRequired other.name self.name)
  else if self.innerType.types.length ≠ other.innerType.types.length then
    .error (.sizeMismatch self.innerType.types.length other.innerType.types.length)
  else checkTensors 0 self.innerType.types other.innerType.types

/-- The structural part of the check: equal sizes, tensors pairwise compatible. -/
def Matches (self other : TensorGroupType τ) : Prop :=
  List.Forall₂ (fun t t' : τ => TensorType.isCompatibleWith t t' = true) self.types other.types

theorem checkTensors_ok_iff (i : ℕ) (l l' : List τ) (hlen : l.length = l'.length) :
    checkTensors i l l' = .ok () ↔
      List.Forall₂ (fun t t' : τ => TensorType.isCompatibleWith t t' = true) l l' := by
  induction l generalizing i l' with
  | nil =>
    obtain rfl : l' = [] := List.length_eq_zero_iff.mp hlen.symm
    exact ⟨fun _ => List.Forall₂.nil, fun _ => rfl⟩
  | cons t rest ih =>
    cases l' with
    | nil => simp at hlen
    | cons t' others =>
      rw [List.forall₂_cons, checkTensors]
      by_cases hc : TensorType.isCompatibleWith t t' = true
      · rw [if_pos hc, ih (i + 1) others (by simpa using hlen)]
        exact ⟨fun h => ⟨hc, h⟩, fun h => h.2⟩
      · rw [if_neg hc]
        exact ⟨fun h => (by cases h), fun h => absurd h.1 hc⟩

/-- The check passes iff no optional output feeds a required input and the
tensors match. -/
theorem checkCompatibility_ok_iff (self other : TensorGroupType τ) :
    self.checkCompatibility other = .ok () ↔
      (other.isOptional = true → self.isOptional = true) ∧ self.Matches other := by
  unfold checkCompatibility
  by_cases hopt : (other.isOptional && !self.isOptional) = true
  · rw [if_pos hopt]
    have hno : ¬ (other.isOptional = true → self.isOptional = true) := by
      intro h
      simp_all
    exact ⟨fun h => (by cases h), fun h => absurd h.1 hno⟩
  · have hyes : other.isOptional = true → self.isOptional = true := by
      intro h
      simpa [h] using hopt
    rw [if_neg hopt, innerType_types, innerType_types]
    by_cases hlen : self.types.length = other.types.length
    · rw [if_neg (not_not_intro hlen)]
      rw [checkTensors_ok_iff 0 _ _ hlen]
      exact ⟨fun h => ⟨hyes, h⟩, fun h => h.2⟩
    · rw [if_pos hlen]
      exact ⟨fun h => (by cases h), fun h => absurd h.2.length_eq hlen⟩

/-- Against an unwrapped type the check is the structural one. -/
theorem checkCompatibility_inner_ok_iff (self other : TensorGroupType τ)
    (h : other.isOptional = false) :
    self.innerType.checkCompatibility other = .ok () ↔ self.Matches other := by
  rw [checkCompatibility_ok_iff, h]
  exact ⟨fun h' => h'.2, fun h' => ⟨fun hf => absurd hf Bool.false_ne_true, h'⟩⟩

end TensorGroupType

/-- An `OptionalTensorGroup`, or a plain `TensorGroup` when `required`; the stored
type is unwrapped and there is one slot a tensor type, unset slots `none`. -/
structure TensorGroup (τ V : Type) where
  groupType : TensorGroupType τ
  required : Bool
  /-- the field `_is_none`, which a plain `TensorGroup` ignores -/
  absent : Bool
  tensors : List (Option V)
  unwrapped : groupType.isOptional = false
  length_tensors : tensors.length = groupType.types.length

namespace TensorGroup

variable {τ V : Type}

/-- `is_none` -/
def isNone (self : TensorGroup τ V) : Bool := if self.required then false else self.absent

/-- The constructor of both classes: unset tensors, marked absent. -/
def new (required : Bool) (groupType : TensorGroupType τ) : TensorGroup τ V where
  groupType := groupType.innerType
  required := required
  absent := true
  tensors := groupType.innerType.types.map fun _ => none
  unwrapped := rfl
  length_tensors := List.length_map _

/-- `_make_output_group` -/
def makeOutputGroup (groupType : TensorGroupType τ) : TensorGroup τ V :=
  new (!groupType.isOptional) groupType

end TensorGroup

abbrev RetargeterIoType (τ : Type) := OrderedDict String (TensorGroupType τ)

abbrev RetargeterIo (τ V : Type) := OrderedDict String (TensorGroup τ V)

/-- Everything that can be raised while a graph is built or executed. -/
inductive GraphError (τ : Type) where
  /-- `_fill_optional_inputs`: a required input is missing -/
  | requiredInputMissing (input retargeter : String)
  /-- `_validate_inputs`: keys outside the input spec -/
  | unexpectedInputs (extra : List String)
  /-- `_validate_inputs`: a required key is missing -/
  | requiredKeyMissing (input : String)
  /-- `_validate_inputs`, `connect`: incompatible group types -/
  | incompatible (error : CompatibilityError τ)
  /-- `_compute_with_cache` of a leaf whose inputs were not supplied -/
  | inputNotFound (retargeter : String)
  /-- a `KeyError`: the selected output is not there -/
  | keyError (output : String)
  /-- `connect`: connections for undeclared inputs -/
  | extraConnections (retargeter : String) (extra : List String)
  /-- `connect`: required inputs left unconnected -/
  | missingConnections (retargeter : String) (missing : List String)
  /-- `OutputCombiner`: no outputs -/
  | emptyMapping
  /-- `OutputCombiner`: the source has no such output -/
  | outputNotFound (output : String) (available : List String)
  /-- raised by a subclass's `_compute_fn` -/
  | computeFn (message : String)
deriving DecidableEq, Repr

/-- A `BaseRetargeter` instance: its name and specs, and what its subclass does
to its private state `σ`. -/
structure Retargeter (τ V σ : Type) where
  name : String
  inputs : RetargeterIoType τ
  outputs : RetargeterIoType τ
  /-- `_sync_parameters_from_state` -/
  syncParametersFromState : σ → σ
  /-- `_compute_fn(inputs, outputs, context)`: the filled outputs or an error,
  and the state it leaves -/
  computeFn : σ → RetargeterIo τ V → RetargeterIo τ V → ComputeContext →
    Except String (RetargeterIo τ V) × σ

namespace Retargeter

variable {τ V σ : Type}

/-- `_allocate_outputs` -/
def allocateOutputs (self : Retargeter τ V σ) : RetargeterIo τ V :=
  self.outputs.entries.foldl (fun outs e => outs.insert e.1 (TensorGroup.makeOutputGroup e.2)) ∅

/-- The loop of `_fill_optional_inputs`; `filled` starts as the caller's inputs. -/
def fillLoop (self : Retargeter τ V σ) (inputs : RetargeterIo τ V) :
    List (String × TensorGroupType τ) → RetargeterIo τ V →
      Except (GraphError τ) (RetargeterIo τ V)
  | [], filled => .ok filled
  | (name, inputType) :: rest, filled =>
    if name ∈ inputs.keys then fillLoop self inputs rest filled
    else if inputType.isOptional then
      fillLoop self inputs rest (filled.insert name (TensorGroup.new false inputType.innerType))
    else .error (.requiredInputMissing name self.name)

/-- `_fill_optional_inputs` -/
def fillOptionalInputs (self : Retargeter τ V σ) (inputs : RetargeterIo τ V) :
    Except (GraphError τ) (RetargeterIo τ V) :=
  self.fillLoop inputs self.inputs.entries inputs

variable [TensorType τ]

/-- One round of the loop of `_validate_inputs`. -/
def validateInput (inputs : RetargeterIo τ V) (name : String)
    (expectedType : TensorGroupType τ) : Except (GraphError τ) Unit :=
  match inputs.get? name with
  | none => if expectedType.isOptional then .ok () else .error (.requiredKeyMissing name)
  | some inputGroup =>
    if expectedType.isOptional && inputGroup.isNone then .ok ()
    else match expectedType.innerType.checkCompatibility inputGroup.groupType with
      | .ok () => .ok ()
      | .error e => .error (.incompatible e)

/-- The loop of `_validate_inputs`. -/
def validateLoop (inputs : RetargeterIo τ V) :
    List (String × TensorGroupType τ) → Except (GraphError τ) Unit
  | [] => .ok ()
  | (name, expectedType) :: rest =>
    match validateInput inputs name expectedType with
    | .ok () => validateLoop inputs rest
    | .error e => .error e

/-- `_validate_inputs` -/
def validateInputs (self : Retargeter τ V σ) (inputs : RetargeterIo τ V) :
    Except (GraphError τ) Unit :=
  let extra := inputs.keys.filter fun k => k ∉ self.inputs.keys
  if extra ≠ [] then .error (.unexpectedInputs extra)
  else validateLoop inputs self.inputs.entries

/-- The two gates of `compute`: the inputs that reach `_compute_fn`. -/
def checkedInputs (self : Retargeter τ V σ) (inputs : RetargeterIo τ V) :
    Except (GraphError τ) (RetargeterIo τ V) :=
  match self.fillOptionalInputs inputs with
  | .error e => .error e
  | .ok filled =>
    match self.validateInputs filled with
    | .error e => .error e
    | .ok () => .ok filled

/-- `_execute_compute`: sync the parameters, then dispatch. -/
def executeCompute (self : Retargeter τ V σ) (state : σ) (inputs outputs : RetargeterIo τ V)
    (context : ComputeContext) : Except (GraphError τ) (RetargeterIo τ V) × σ :=
  match self.computeFn (self.syncParametersFromState state) inputs outputs context with
  | (.ok outs, state') => (.ok outs, state')
  | (.error message, state') => (.error (.computeFn message), state')

/-- `compute`, on freshly allocated outputs. -/
def compute (self : Retargeter τ V σ) (state : σ) (inputs : RetargeterIo τ V)
    (context : ComputeContext) : Except (GraphError τ) (RetargeterIo τ V) × σ :=
  match self.checkedInputs inputs with
  | .error e => (.error e, state)
  | .ok filled => self.executeCompute state filled self.allocateOutputs context

/-! ### Inputs that pass both gates -/

/-- The inputs are declared ones, every required one is a present group of a
matching type, and every optional one is missing, absent or of a matching type. -/
structure Fits (r : Retargeter τ V σ) (inputs : RetargeterIo τ V) : Prop where
  declared : ∀ k ∈ inputs.keys, k ∈ r.inputs.keys
  required : ∀ name t, (name, t) ∈ r.inputs.entries → t.isOptional = false →
    ∃ group, inputs.get? name = some group ∧ group.isNone = false ∧ t.Matches group.groupType
  optional : ∀ name t, (name, t) ∈ r.inputs.entries → t.isOptional = true →
    ∀ group, inputs.get? name = some group →
      group.isNone = true ∨ t.Matches group.groupType

omit [TensorType τ] in
/-- The fill loop keeps every entry there is and only adds absent groups under
the optional names it visits. -/
theorem fillLoop_ok (self : Retargeter τ V σ) (inputs : RetargeterIo τ V)
    (l : List (String × TensorGroupType τ)) (filled : RetargeterIo τ V)
    (hreq : ∀ e ∈ l, e.2.isOptional = false → e.1 ∈ inputs.keys) :
    ∃ filled', self.fillLoop inputs l filled = .ok filled' ∧
      (∀ k ∈ inputs.keys, filled'.get? k = filled.get? k) ∧
      ∀ k group, filled'.get? k = some group → filled.get? k = some group ∨
        (group.isNone = true ∧ ∃ t, (k, t) ∈ l ∧ t.isOptional = true) := by
  induction l generalizing filled with
  | nil => exact ⟨filled, rfl, fun _ _ => rfl, fun _ _ h => Or.inl h⟩
  | cons e rest ih =>
    obtain ⟨name, inputType⟩ := e
    have hrest : ∀ e ∈ rest, e.2.isOptional = false → e.1 ∈ inputs.keys :=
      fun e he => hreq e (List.mem_cons_of_mem _ he)
    rw [fillLoop]
    by_cases hin : name ∈ inputs.keys
    · -- An input that is given is kept.
      rw [if_pos hin]
      obtain ⟨filled', hok, hkeep, hadd⟩ := ih filled hrest
      refine ⟨filled', hok, hkeep, fun k group hk => ?_⟩
      rcases hadd k group hk with hold | ⟨hnone, t, ht, hopt⟩
      · exact Or.inl hold
      · exact Or.inr ⟨hnone, t, List.mem_cons_of_mem _ ht, hopt⟩
    · -- A missing one is optional, so an empty group stands in for it.
      have hopt : inputType.isOptional = true := by
        by_contra hno
        exact hin (hreq _ List.mem_cons_self (by simpa using hno))
      rw [if_neg hin, if_pos hopt]
      obtain ⟨filled', hok, hkeep, hadd⟩ :=
        ih (filled.insert name (TensorGroup.new false inputType.innerType)) hrest
      refine ⟨filled', hok, fun k hk => ?_, fun k group hk => ?_⟩
      · have hne : k ≠ name := fun heq => hin (heq ▸ hk)
        rw [hkeep k hk, OrderedDict.get?_insert, if_neg hne]
      · rcases hadd k group hk with hold | ⟨hnone, t, ht, htopt⟩
        · rw [OrderedDict.get?_insert] at hold
          by_cases hk' : k = name
          · subst hk'
            rw [if_pos rfl, Option.some_inj] at hold
            subst hold
            exact Or.inr ⟨rfl, inputType, List.mem_cons_self, hopt⟩
          · rw [if_neg hk'] at hold
            exact Or.inl hold
        · exact Or.inr ⟨hnone, t, List.mem_cons_of_mem _ ht, htopt⟩

omit [TensorType τ] in
/-- A fill loop that ends has found every required input that it visits. -/
theorem fillLoop_required {self : Retargeter τ V σ} {inputs : RetargeterIo τ V}
    {l : List (String × TensorGroupType τ)} {filled filled' : RetargeterIo τ V}
    (h : self.fillLoop inputs l filled = .ok filled') :
    ∀ e ∈ l, e.2.isOptional = false → e.1 ∈ inputs.keys := by
  induction l generalizing filled with
  | nil => exact fun e he => absurd he List.not_mem_nil
  | cons e rest ih =>
    obtain ⟨name, inputType⟩ := e
    intro e' he' hopt
    rw [fillLoop] at h
    by_cases hin : name ∈ inputs.keys
    · rw [if_pos hin] at h
      rcases List.mem_cons.mp he' with rfl | hmem
      · exact hin
      · exact ih h e' hmem hopt
    · rw [if_neg hin] at h
      split at h
      · rename_i hoptional
        rcases List.mem_cons.mp he' with rfl | hmem
        · rw [hoptional] at hopt
          cases hopt
        · exact ih h e' hmem hopt
      · cases h

theorem validateLoop_ok_iff (inputs : RetargeterIo τ V) (l : List (String × TensorGroupType τ)) :
    validateLoop inputs l = .ok () ↔ ∀ e ∈ l, validateInput inputs e.1 e.2 = .ok () := by
  induction l with
  | nil => exact ⟨fun _ e he => absurd he List.not_mem_nil, fun _ => rfl⟩
  | cons e rest ih =>
    rw [validateLoop, List.forall_mem_cons]
    cases hround : validateInput inputs e.1 e.2 with
    | ok u => exact ⟨fun h => ⟨rfl, ih.mp h⟩, fun h => ih.mpr h.2⟩
    | error err => exact ⟨fun h => (by cases h), fun h => (by cases h.1)⟩

/-- A declared input passes its round iff it is absent and optional, or of a
matching type. -/
theorem validateInput_ok_iff {inputs : RetargeterIo τ V} {name : String} {t : TensorGroupType τ}
    {group : TensorGroup τ V} (hget : inputs.get? name = some group) :
    validateInput inputs name t = .ok () ↔
      (t.isOptional = true ∧ group.isNone = true) ∨ t.Matches group.groupType := by
  have hround : validateInput inputs name t =
      if t.isOptional && group.isNone then .ok ()
      else match t.innerType.checkCompatibility group.groupType with
        | .ok () => .ok ()
        | .error e => .error (.incompatible e) := by
    rw [validateInput, hget]
  rw [hround, ← t.checkCompatibility_inner_ok_iff _ group.unwrapped, ← Bool.and_eq_true]
  by_cases hskip : (t.isOptional && group.isNone) = true
  · rw [if_pos hskip]
    exact ⟨fun _ => Or.inl hskip, fun _ => rfl⟩
  · rw [if_neg hskip]
    cases hcheck : t.innerType.checkCompatibility group.groupType with
    | ok u => exact ⟨fun _ => Or.inr rfl, fun _ => rfl⟩
    | error e =>
      refine ⟨fun h => (by cases h), ?_⟩
      rintro (h | h)
      · exact absurd h hskip
      · cases h

/-- The inputs are declared ones, every required one is there and of a matching type, and every
optional one is missing, absent or of a matching type.  Nothing is asked of the presence of a
required group. -/
structure Admissible (r : Retargeter τ V σ) (inputs : RetargeterIo τ V) : Prop where
  declared : ∀ k ∈ inputs.keys, k ∈ r.inputs.keys
  required : ∀ name t, (name, t) ∈ r.inputs.entries → t.isOptional = false →
    ∃ group, inputs.get? name = some group ∧ t.Matches group.groupType
  optional : ∀ name t, (name, t) ∈ r.inputs.entries → t.isOptional = true →
    ∀ group, inputs.get? name = some group →
      group.isNone = true ∨ t.Matches group.groupType

theorem Fits.admissible {r : Retargeter τ V σ} {inputs : RetargeterIo τ V} (h : r.Fits inputs) :
    r.Admissible inputs where
  declared := h.declared
  required name t hmem hopt := by
    obtain ⟨group, hget, -, hmatch⟩ := h.required name t hmem hopt
    exact ⟨group, hget, hmatch⟩
  optional := h.optional

/-- **Admissible inputs pass both gates**, and the required ones are handed on as they are. -/
theorem checkedInputs_of_admissible {self : Retargeter τ V σ} {inputs : RetargeterIo τ V}
    (h : self.Admissible inputs) :
    ∃ filled, self.checkedInputs inputs = .ok filled ∧
      ∀ name t, (name, t) ∈ self.inputs.entries → t.isOptional = false →
        filled.get? name = inputs.get? name := by
  have hreq : ∀ e ∈ self.inputs.entries, e.2.isOptional = false → e.1 ∈ inputs.keys := by
    intro e he hopt
    obtain ⟨group, hget, -⟩ := h.required e.1 e.2 he hopt
    exact OrderedDict.mem_keys.mpr ⟨group, hget⟩
  obtain ⟨filled, hfill, hkeep, hadd⟩ := self.fillLoop_ok inputs self.inputs.entries inputs hreq
  -- Filling adds declared inputs only.
  have hdeclared : ∀ k ∈ filled.keys, k ∈ self.inputs.keys := by
    intro k hk
    obtain ⟨group, hget⟩ := OrderedDict.mem_keys.mp hk
    rcases hadd k group hget with hold | ⟨-, t, ht, -⟩
    · exact h.declared k (OrderedDict.mem_keys.mpr ⟨group, hold⟩)
    · exact List.mem_map.mpr ⟨(k, t), ht, rfl⟩
  have hrequired : ∀ name t, (name, t) ∈ self.inputs.entries → t.isOptional = false →
      filled.get? name = inputs.get? name :=
    fun name t hmem hopt => hkeep name (hreq (name, t) hmem hopt)
  -- A required input is as it was given; an optional one may have been filled with nothing.
  have hrounds : ∀ e ∈ self.inputs.entries, validateInput filled e.1 e.2 = .ok () := by
    intro e he
    obtain ⟨name, t⟩ := e
    cases hopt : t.isOptional with
    | false =>
      obtain ⟨group, hget, hmatch⟩ := h.required name t he hopt
      have hfilled := (hrequired name t he hopt).trans hget
      exact (validateInput_ok_iff hfilled).mpr (Or.inr hmatch)
    | true =>
      cases hget : filled.get? name with
      | none => simp [validateInput, hget, hopt]
      | some group =>
        refine (validateInput_ok_iff hget).mpr ?_
        rcases hadd name group hget with hold | ⟨hnone, -⟩
        · rcases h.optional name t he hopt group hold with hnone | hmatch
          · exact Or.inl ⟨hopt, hnone⟩
          · exact Or.inr hmatch
        · exact Or.inl ⟨hopt, hnone⟩
  have hextra : (filled.keys.filter fun k => k ∉ self.inputs.keys) = [] := by
    rw [List.filter_eq_nil_iff]
    intro k hk
    simpa using hdeclared k hk
  have hvalid : self.validateInputs filled = .ok () := by
    rw [validateInputs, hextra]
    exact (validateLoop_ok_iff filled self.inputs.entries).mpr hrounds
  refine ⟨filled, ?_, hrequired⟩
  rw [checkedInputs, fillOptionalInputs, hfill]
  show (match self.validateInputs filled with
    | .error e => .error e
    | .ok () => .ok filled) = Except.ok filled
  rw [hvalid]

/-- **Inputs that fit the spec pass both gates**, and the required ones are handed
on as they are. -/
theorem checkedInputs_of_fit {self : Retargeter τ V σ} {inputs : RetargeterIo τ V}
    (h : self.Fits inputs) :
    ∃ filled, self.checkedInputs inputs = .ok filled ∧
      ∀ name t, (name, t) ∈ self.inputs.entries → t.isOptional = false →
        ∃ group, filled.get? name = some group ∧ group.isNone = false ∧
          t.Matches group.groupType := by
  obtain ⟨filled, hok, hsame⟩ := checkedInputs_of_admissible h.admissible
  refine ⟨filled, hok, fun name t hmem hopt => ?_⟩
  obtain ⟨group, hget, hnone, hmatch⟩ := h.required name t hmem hopt
  exact ⟨group, (hsame name t hmem hopt).trans hget, hnone, hmatch⟩

/-- **Only admissible inputs pass both gates.** -/
theorem admissible_of_checkedInputs {self : Retargeter τ V σ} {inputs filled : RetargeterIo τ V}
    (h : self.checkedInputs inputs = .ok filled) : self.Admissible inputs := by
  rw [checkedInputs] at h
  split at h
  · cases h
  rename_i filled' hfill
  split at h
  · cases h
  rename_i hvalid
  have hreq := fillLoop_required hfill
  obtain ⟨filled'', hfill', hkeep, -⟩ := self.fillLoop_ok inputs self.inputs.entries inputs hreq
  obtain rfl : filled' = filled'' := by
    rw [fillOptionalInputs, hfill'] at hfill
    exact (Except.ok.inj hfill).symm
  have hkept : ∀ k group, inputs.get? k = some group → filled'.get? k = some group :=
    fun k group hget => (hkeep k (OrderedDict.mem_keys.mpr ⟨group, hget⟩)).trans hget
  rw [validateInputs] at hvalid
  split at hvalid
  · cases hvalid
  rename_i hextra
  have hrounds := (validateLoop_ok_iff filled' self.inputs.entries).mp hvalid
  refine ⟨fun k hk => ?_, fun name t hmem hopt => ?_, fun name t hmem hopt group hget => ?_⟩
  · -- a supplied key is still there after the filling, and none of those is undeclared
    obtain ⟨group, hget⟩ := OrderedDict.mem_keys.mp hk
    have hkfilled : k ∈ filled'.keys := OrderedDict.mem_keys.mpr ⟨group, hkept k group hget⟩
    have hnil := List.filter_eq_nil_iff.mp (not_not.mp hextra) k hkfilled
    simpa using hnil
  · obtain ⟨group, hget⟩ := OrderedDict.mem_keys.mp (hreq (name, t) hmem hopt)
    refine ⟨group, hget, ?_⟩
    rcases (validateInput_ok_iff (hkept name group hget)).mp (hrounds (name, t) hmem) with h | h
    · rw [hopt] at h
      cases h.1
    · exact h
  · rcases (validateInput_ok_iff (hkept name group hget)).mp (hrounds (name, t) hmem) with h | h
    · exact Or.inl h.2
    · exact Or.inr h

end Retargeter
