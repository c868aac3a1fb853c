/-
Required inputs of a retargeter.

`_validate_inputs` looks at `is_none` only where the declared type is optional; for a required
input it compares the types, and a group stores its type unwrapped.  An absent
`OptionalTensorGroup` of the right type therefore passes as a required input.

* `Retargeter.required_present_iff` — exactly when the required inputs that reach
  `_compute_fn` are present.
-/
import IsaacTeleop.TensorGroup

namespace Retargeter

variable {τ V σ : Type} [TensorType τ]

/-- An absent group is supplied for a required input. -/
def SuppliesAbsent (r : Retargeter τ V σ) (inputs : RetargeterIo τ V) : Prop :=
  ∃ name t group, (name, t) ∈ r.inputs.entries ∧ t.isOptional = false ∧
    inputs.get? name = some group ∧ group.isNone = true

/-- Every required input is a present group. -/
def RequiredPresent (r : Retargeter τ V σ) (inputs : RetargeterIo τ V) : Prop :=
  ∀ name t, (name, t) ∈ r.inputs.entries → t.isOptional = false →
    ∃ group, inputs.get? name = some group ∧ group.isNone = false

/-- Rejected inputs raise before the subclass's function is called. -/
theorem compute_of_checkedInputs_error {r : Retargeter τ V σ} {inputs : RetargeterIo τ V}
    {e : GraphError τ} (h : r.checkedInputs inputs = .error e) (state : σ)
    (context : ComputeContext) : r.compute state inputs context = (.error e, state) := by
  rw [compute, h]

/-- **When required inputs are present.**  For every retargeter and every inputs dict: what
reaches `_compute_fn` has every required input present, and an absent group supplied for a
required input makes `compute` raise without calling it, exactly if it is not so that the dict
is admissible (declared names only, every required one supplied with a group of a matching
type, every optional one missing, absent or of a matching type) and supplies an absent group
for a required input. -/
theorem required_present_iff (r : Retargeter τ V σ) (inputs : RetargeterIo τ V) :
    ((∀ filled, r.checkedInputs inputs = .ok filled → r.RequiredPresent filled) ∧
      (r.SuppliesAbsent inputs → ∃ e, r.checkedInputs inputs = .error e ∧
        ∀ state context, r.compute state inputs context = (.error e, state))) ↔
    ¬ (r.Admissible inputs ∧ r.SuppliesAbsent inputs) := by
  constructor
  · rintro ⟨-, hrejects⟩ ⟨hadm, habsent⟩
    obtain ⟨filled, hok, -⟩ := checkedInputs_of_admissible hadm
    obtain ⟨e, herror, -⟩ := hrejects habsent
    rw [hok] at herror
    cases herror
  · intro hnot
    refine ⟨fun filled hok name t hmem hopt => ?_, fun habsent => ?_⟩
    · have hadm := admissible_of_checkedInputs hok
      obtain ⟨filled', hok', hsame⟩ := checkedInputs_of_admissible hadm
      obtain rfl : filled' = filled := Except.ok.inj (hok'.symm.trans hok)
      obtain ⟨group, hget, -⟩ := hadm.required name t hmem hopt
      refine ⟨group, (hsame name t hmem hopt).trans hget, ?_⟩
      by_contra hnone
      exact hnot ⟨hadm, name, t, group, hmem, hopt, hget, by simpa using hnone⟩
    · -- an absent group in a dict that is not admissible: another check raises
      cases hchecked : r.checkedInputs inputs with
      | ok filled => exact absurd ⟨admissible_of_checkedInputs hchecked, habsent⟩ hnot
      | error e => exact ⟨e, rfl, compute_of_checkedInputs_error hchecked⟩

/-! ### An absent group for a required input -/

/-- A tensor of one float. -/
inductive FloatType
  | value
  deriving DecidableEq

instance : TensorType FloatType where
  name _ := "value"
  cls _ := 0
  checkInstanceCompatibility _ _ := true

/-- A group of one float, not optional. -/
def floatGroup : TensorGroupType FloatType := { name := "x", types := [.value] }

/-- One required input; the function reports whether it was handed a present group. -/
def reader : Retargeter FloatType ℕ Unit where
  name := "reader"
  inputs := (∅ : RetargeterIoType FloatType).insert "x" floatGroup
  outputs := ∅
  syncParametersFromState := id
  computeFn _ inputs outputs _ :=
    match inputs.get? "x" with
    | some group => if group.isNone then (.error "x is absent", ()) else (.ok outputs, ())
    | none => (.error "x is missing", ())

/-- `{"x": OptionalTensorGroup(x)}` -/
def absentInput : RetargeterIo FloatType ℕ :=
  (∅ : RetargeterIo FloatType ℕ).insert "x" (TensorGroup.new false floatGroup)

/-- The absent group passes both gates and is handed to `_compute_fn`, whose own error comes
out. -/
theorem absent_required_input_computed :
    reader.SuppliesAbsent absentInput ∧ reader.checkedInputs absentInput = .ok absentInput ∧
      ¬ reader.RequiredPresent absentInput ∧
      reader.compute () absentInput default = (.error (.computeFn "x is absent"), ()) := by
  have hsupplied : absentInput.get? "x" = some (TensorGroup.new false floatGroup) := rfl
  have hmem : ("x", floatGroup) ∈ reader.inputs.entries := by decide
  refine ⟨⟨"x", floatGroup, _, hmem, rfl, hsupplied, rfl⟩, rfl, fun hpresent => ?_, rfl⟩
  obtain ⟨group, hget, hnone⟩ := hpresent "x" floatGroup hmem rfl
  obtain rfl := Option.some.inj (hsupplied.symm.trans hget)
  cases hnone

end Retargeter
