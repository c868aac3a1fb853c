/-
The least envelope of a sequence under a bound on its steps.

A sequence is a list of values with their positions; two neighbours may differ by at most the bound
of their positions.  A forward pass raises what falls too fast and a backward pass what rises too
fast; together they give the least sequence that is nowhere below the given one and keeps the bound.

* `forward`, `backward` — the passes;
* `Below` — nowhere above, at the same positions;
* `backward_keeps` — the second pass does not undo the first;
* `isLeast_envelope` — the envelope is least.
-/
import Mathlib.Algebra.Order.Group.Abs
import Mathlib.Tactic

namespace LeastEnvelope

variable {τ K : Type} [AddCommGroup K] [LinearOrder K] (bound : τ → τ → K)

/-! ### The passes -/

/-- The forward pass after a value. -/
def forwardFrom (last : τ × K) : List (τ × K) → List (τ × K)
  | [] => []
  | (t, x) :: rest =>
    let y := max x (last.2 - bound last.1 t)
    (t, y) :: forwardFrom (t, y) rest

/-- Every value is raised to the one before it less the bound. -/
def forward : List (τ × K) → List (τ × K)
  | [] => []
  | first :: rest => first :: forwardFrom bound first rest

/-- Every value is raised to the one after it less the bound, from the end. -/
def backward : List (τ × K) → List (τ × K)
  | [] => []
  | (t, x) :: rest =>
    match backward rest with
    | [] => [(t, x)]
    | (t', y) :: rest' => (t, max x (y - bound t t')) :: (t', y) :: rest'

def envelope (l : List (τ × K)) : List (τ × K) := backward bound (forward bound l)

/-- A sequence at the same positions that is nowhere above another. -/
def Below (l l' : List (τ × K)) : Prop := List.Forall₂ (fun a b => a.1 = b.1 ∧ a.2 ≤ b.2) l l'

/-- No value falls by more than the bound. -/
def FallsSlowly (l : List (τ × K)) : Prop := l.IsChain fun a b => a.2 - bound a.1 b.1 ≤ b.2

/-- No value rises by more than the bound. -/
def RisesSlowly (l : List (τ × K)) : Prop := l.IsChain fun a b => b.2 - bound a.1 b.1 ≤ a.2

/-- Neighbours differ by at most the bound. -/
def Within (l : List (τ × K)) : Prop := l.IsChain fun a b => |b.2 - a.2| ≤ bound a.1 b.1

variable {bound}

omit [AddCommGroup K] in
theorem Below.refl (l : List (τ × K)) : Below l l := List.forall₂_same.mpr fun _ _ => ⟨rfl, le_rfl⟩

theorem forall₂_comp {α β γ : Type} {R : α → β → Prop} {S : β → γ → Prop} {T : α → γ → Prop}
    (hcomp : ∀ a b c, R a b → S b c → T a c) {l : List α} {l' : List β} {l'' : List γ}
    (h : List.Forall₂ R l l') (h' : List.Forall₂ S l' l'') : List.Forall₂ T l l'' := by
  induction h generalizing l'' with
  | nil =>
    cases h'
    exact .nil
  | cons hab _ ih =>
    cases h' with
    | cons hbc hrest => exact .cons (hcomp _ _ _ hab hbc) (ih hrest)

omit [AddCommGroup K] in
theorem Below.trans {l₁ l₂ l₃ : List (τ × K)} (h : Below l₁ l₂) (h' : Below l₂ l₃) :
    Below l₁ l₃ :=
  forall₂_comp (fun _ _ _ hab hbc => ⟨hab.1.trans hbc.1, hab.2.trans hbc.2⟩) h h'

omit [AddCommGroup K] in
theorem isChain_of_below {R : τ → τ → Prop} {l l' : List (τ × K)} (h : Below l l')
    (hl : l.IsChain fun a b => R a.1 b.1) : l'.IsChain fun a b => R a.1 b.1 := by
  induction h with
  | nil => exact List.isChain_nil
  | @cons a b l l' hab hrest ih =>
    cases hrest with
    | nil => exact List.isChain_singleton _
    | cons hcd _ =>
      have hstep := (List.isChain_cons_cons.mp hl).1
      rw [hab.1, hcd.1] at hstep
      exact List.isChain_cons_cons.mpr ⟨hstep, ih hl.tail⟩

/-! ### The forward pass -/

theorem below_forwardFrom (last : τ × K) (l : List (τ × K)) :
    Below l (forwardFrom bound last l) := by
  induction l generalizing last with
  | nil => exact .nil
  | cons a rest ih => exact .cons ⟨rfl, le_max_left _ _⟩ (ih _)

variable (bound) in
theorem below_forward (l : List (τ × K)) : Below l (forward bound l) := by
  cases l with
  | nil => exact .nil
  | cons a rest => exact .cons ⟨rfl, le_rfl⟩ (below_forwardFrom a rest)

theorem fallsSlowly_forwardFrom (last : τ × K) (l : List (τ × K)) :
    FallsSlowly bound (last :: forwardFrom bound last l) := by
  induction l generalizing last with
  | nil => exact List.isChain_singleton _
  | cons a rest ih => exact List.isChain_cons_cons.mpr ⟨le_max_right _ _, ih _⟩

theorem fallsSlowly_forward (l : List (τ × K)) : FallsSlowly bound (forward bound l) := by
  cases l with
  | nil => exact List.isChain_nil
  | cons a rest => exact fallsSlowly_forwardFrom a rest

section Order

variable [IsOrderedAddMonoid K]

/-- The forward pass is below every sequence above the given one that falls slowly. -/
theorem forwardFrom_below {last last' : τ × K} (hlast : last.1 = last'.1 ∧ last.2 ≤ last'.2)
    {l z : List (τ × K)} (h : Below l z) (hz : FallsSlowly bound (last' :: z)) :
    Below (forwardFrom bound last l) z := by
  induction h generalizing last last' with
  | nil => exact .nil
  | @cons a b l z hab _ ih =>
    obtain ⟨hstep, hrest⟩ := List.isChain_cons_cons.mp hz
    have hle : max a.2 (last.2 - bound last.1 a.1) ≤ b.2 := by
      refine max_le hab.2 (le_trans ?_ hstep)
      rw [hlast.1, hab.1]
      exact sub_le_sub_right hlast.2 _
    exact .cons ⟨hab.1, hle⟩ (ih ⟨hab.1, hle⟩ hrest)

theorem forward_below {l z : List (τ × K)} (h : Below l z) (hz : FallsSlowly bound z) :
    Below (forward bound l) z := by
  cases h with
  | nil => exact .nil
  | cons hab hrest => exact .cons hab (forwardFrom_below hab hrest hz)

end Order

/-! ### The backward pass -/

variable (bound) in
theorem backward_cons (a : τ × K) (l : List (τ × K)) :
    (l = [] ∧ backward bound (a :: l) = [a]) ∨
    ∃ b rest, backward bound l = b :: rest ∧
      backward bound (a :: l) = (a.1, max a.2 (b.2 - bound a.1 b.1)) :: b :: rest := by
  obtain ⟨t, x⟩ := a
  cases l with
  | nil => exact .inl ⟨rfl, rfl⟩
  | cons c l =>
    right
    have hne : backward bound (c :: l) ≠ [] := by
      rw [backward]
      split <;> simp
    obtain ⟨b, rest, hrest⟩ := List.exists_cons_of_ne_nil hne
    refine ⟨b, rest, hrest, ?_⟩
    rw [backward, hrest]

variable (bound) in
theorem below_backward (l : List (τ × K)) : Below l (backward bound l) := by
  induction l with
  | nil => exact .nil
  | cons a l ih =>
    rcases backward_cons bound a l with ⟨rfl, heq⟩ | ⟨b, rest, hl, heq⟩
    · rw [heq]
      exact Below.refl _
    · rw [hl] at ih
      rw [heq]
      exact .cons ⟨rfl, le_max_left _ _⟩ ih

theorem risesSlowly_backward (l : List (τ × K)) : RisesSlowly bound (backward bound l) := by
  induction l with
  | nil => exact List.isChain_nil
  | cons a l ih =>
    rcases backward_cons bound a l with ⟨rfl, heq⟩ | ⟨b, rest, hl, heq⟩
    · rw [heq]
      exact List.isChain_singleton _
    · rw [hl] at ih
      rw [heq]
      exact List.isChain_cons_cons.mpr ⟨le_max_right _ _, ih⟩

section Order

variable [IsOrderedAddMonoid K]

/-- The backward pass is below every sequence above the given one that rises slowly. -/
theorem backward_below {l z : List (τ × K)} (h : Below l z) (hz : RisesSlowly bound z) :
    Below (backward bound l) z := by
  induction h with
  | nil => exact .nil
  | @cons a c l z hac hrest ih =>
    rcases backward_cons bound a l with ⟨rfl, heq⟩ | ⟨b, rest, hl, heq⟩
    · rw [heq]
      exact .cons hac hrest
    · have hbelow := ih hz.tail
      rw [hl] at hbelow
      rw [heq]
      cases hbelow with
      | @cons _ d _ z hbd hrest' =>
        refine .cons ⟨hac.1, max_le hac.2 ?_⟩ (.cons hbd hrest')
        have hstep := (List.isChain_cons_cons.mp hz).1
        rw [hac.1, hbd.1]
        exact le_trans (sub_le_sub_right hbd.2 _) hstep

/-- **The backward pass does not undo the forward pass.** -/
theorem backward_keeps {l : List (τ × K)} (hbound : l.IsChain fun a b => 0 ≤ bound a.1 b.1)
    (h : FallsSlowly bound l) : FallsSlowly bound (backward bound l) := by
  induction l with
  | nil => exact List.isChain_nil
  | cons a l ih =>
    rcases backward_cons bound a l with ⟨rfl, heq⟩ | ⟨b, rest, hl, heq⟩
    · rw [heq]
      exact List.isChain_singleton _
    · have hrest := ih hbound.tail h.tail
      have hbelow := below_backward bound l
      rw [hl] at hrest hbelow
      rw [heq]
      refine List.isChain_cons_cons.mpr ⟨?_, hrest⟩
      cases hbelow with
      | @cons c _ l' _ hcb _ =>
        have hfalls := (List.isChain_cons_cons.mp h).1
        have hnonneg := (List.isChain_cons_cons.mp hbound).1
        rw [hcb.1] at hfalls hnonneg
        -- Either the old value fell slowly, or the new one is below its neighbour.
        rw [sub_le_iff_le_add]
        refine max_le ?_ ?_
        · rw [← sub_le_iff_le_add]
          exact le_trans hfalls hcb.2
        · calc b.2 - bound a.1 b.1 ≤ b.2 := sub_le_self _ hnonneg
            _ ≤ b.2 + bound a.1 b.1 := le_add_of_nonneg_right hnonneg

end Order

/-! ### The envelope -/

section Envelope

variable [IsOrderedAddMonoid K]

theorem within_iff (l : List (τ × K)) :
    Within bound l ↔ FallsSlowly bound l ∧ RisesSlowly bound l := by
  -- An absolute difference is bounded from both sides.
  have hiff : ∀ a b : τ × K, |b.2 - a.2| ≤ bound a.1 b.1 ↔
      a.2 - bound a.1 b.1 ≤ b.2 ∧ b.2 - bound a.1 b.1 ≤ a.2 := by
    intro a b
    rw [abs_le, sub_le_comm, neg_le_sub_iff_le_add, sub_le_iff_le_add, sub_le_iff_le_add]
  induction l with
  | nil => simp [Within, FallsSlowly, RisesSlowly]
  | cons a l ih =>
    cases l with
    | nil => simp [Within, FallsSlowly, RisesSlowly]
    | cons b l =>
      have hwithin : Within bound (a :: b :: l) ↔
          |b.2 - a.2| ≤ bound a.1 b.1 ∧ Within bound (b :: l) := List.isChain_cons_cons
      have hfalls : FallsSlowly bound (a :: b :: l) ↔
          a.2 - bound a.1 b.1 ≤ b.2 ∧ FallsSlowly bound (b :: l) := List.isChain_cons_cons
      have hrises : RisesSlowly bound (a :: b :: l) ↔
          b.2 - bound a.1 b.1 ≤ a.2 ∧ RisesSlowly bound (b :: l) := List.isChain_cons_cons
      rw [hwithin, hfalls, hrises, hiff]
      constructor
      · rintro ⟨⟨hfall, hrise⟩, hrest⟩
        exact ⟨⟨hfall, (ih.mp hrest).1⟩, hrise, (ih.mp hrest).2⟩
      · rintro ⟨⟨hfall, hfalls'⟩, hrise, hrises'⟩
        exact ⟨⟨hfall, hrise⟩, ih.mpr ⟨hfalls', hrises'⟩⟩

/-- The least sequence above a given one that keeps the bound. -/
structure IsLeastAbove (bound : τ → τ → K) (l least : List (τ × K)) : Prop where
  above : Below l least
  within : Within bound least
  least : ∀ z, Below l z → Within bound z → Below least z

/-- **The envelope is least.** -/
theorem isLeast_envelope {l : List (τ × K)} (hbound : l.IsChain fun a b => 0 ≤ bound a.1 b.1) :
    IsLeastAbove bound l (envelope bound l) := by
  have hforward := below_forward bound l
  constructor
  · exact hforward.trans (below_backward bound _)
  · have hbound' := isChain_of_below (R := fun t t' => 0 ≤ bound t t') hforward hbound
    have hfalls := backward_keeps hbound' (fallsSlowly_forward l)
    exact (within_iff _).mpr ⟨hfalls, risesSlowly_backward _⟩
  · intro z hz hwithin
    obtain ⟨hfalls, hrises⟩ := (within_iff z).mp hwithin
    exact backward_below (forward_below hz hfalls) hrises

end Envelope

end LeastEnvelope
