/-
Equations along an acyclic relation.

Each key of a finite set has an equation that reads the values of other keys.  Where no chain of
references comes back to its beginning, the equations can be solved one after the other, and in one
way only.

* `exists_last` — a finite set has a key from which none of the set is reached;
* `eq_of_step` — two solutions are equal;
* `acyclic_of_acc` — what has been solved one after the other has no cycle.
-/
import Mathlib.Logic.Relation
import Mathlib.Order.WellFounded
import Mathlib.Order.WellFoundedSet
import Mathlib.Data.Set.Finite.Basic

namespace AcyclicEquations

variable {κ ν : Type} {refers : κ → κ → Prop}

/-- No chain of references comes back. -/
def Acyclic (refers : κ → κ → Prop) : Prop := ∀ k, ¬Relation.TransGen refers k k

/-- **The last key of a finite set.** -/
theorem exists_last (h : Acyclic refers) {s : Set κ} (hs : s.Finite) (hne : s.Nonempty) :
    ∃ k ∈ s, ∀ k' ∈ s, ¬Relation.TransGen refers k k' := by
  let reached : s → s → Prop := fun b c => Relation.TransGen refers c.1 b.1
  have htrans : IsTrans s reached := ⟨fun _ _ _ hbc hcd => hcd.trans hbc⟩
  have hirrefl : Std.Irrefl reached := ⟨fun b => h b.1⟩
  have hfinite : Finite s := hs.to_subtype
  have hwf : WellFounded reached := Finite.wellFounded_of_trans_of_irrefl reached
  obtain ⟨k, hk⟩ := hne
  obtain ⟨last, -, hlast⟩ := hwf.has_min Set.univ ⟨⟨k, hk⟩, trivial⟩
  exact ⟨last.1, last.2, fun k' hk' hpath => hlast ⟨k', hk'⟩ trivial hpath⟩

/-- **At most one solution**: two assignments that agree on a key as soon as they agree on what it
refers to are equal. -/
theorem eq_of_step (h : Acyclic refers) {s : Set κ} (hs : s.Finite) {ρ ρ' : κ → ν}
    (hout : ∀ k, k ∉ s → ρ k = ρ' k)
    (hstep : ∀ k ∈ s, (∀ r, refers k r → ρ r = ρ' r) → ρ k = ρ' k) : ρ = ρ' := by
  by_contra hne
  obtain ⟨k₀, hk₀⟩ := Function.ne_iff.mp hne
  have hsub : {k | ρ k ≠ ρ' k} ⊆ s := by
    intro k hk
    by_contra hnot
    exact hk (hout k hnot)
  obtain ⟨k, hk, hlast⟩ := exists_last h (hs.subset hsub) ⟨k₀, hk₀⟩
  refine hk (hstep k (hsub hk) fun r hr => ?_)
  by_contra hdiffer
  exact hlast r hdiffer (.single hr)

/-- **No cycle** where every key comes after what it refers to. -/
theorem acyclic_of_acc (h : ∀ k, Acc (fun r k => refers k r) k) : Acyclic refers := by
  have hwf : WellFounded (Relation.TransGen fun r k => refers k r) :=
    WellFounded.transGen ⟨h⟩
  intro k hcycle
  have hback : Relation.TransGen (fun r k => refers k r) k k := Relation.transGen_swap.mp hcycle
  exact hwf.irrefl.irrefl k hback

end AcyclicEquations
