/-
The label windows of a recording.

A step of the script is a half-open window on the sample clock.  `defects` judges a list of steps:
overlaps between neighbours in the order of the start times, the order by two lists of indices.
The two lists agree when the steps are listed by their start times, whatever their indices are.

* `defects`, `stepAt` — the functions of the timeline;
* `pairwise_apart_iff` — neighbours that do not overlap are pairwise disjoint;
* `defects_eq_nil_iff` — what a list without defects is;
* `stepAt_of_contains` — then a sample time lies in at most one window;
* `Base.listedInOrder_iff`, `Base.misplaced_iff` — what the comparison of the two lists says;
* `label_validation` — when the judgement is exact.
-/
import Mathlib.Data.List.Sort
import Mathlib.Data.List.Dedup
import Mathlib.Tactic

namespace StepTimeline

/-! ### Steps -/

structure Step where
  index : ℤ
  label : String
  startNs : ℤ
  endNs : ℤ
  isStillWindow : Bool
  deriving DecidableEq

/-- `contains` -/
def Step.contains (step : Step) (sampleNs : ℤ) : Bool :=
  decide (step.startNs ≤ sampleNs) && decide (sampleNs < step.endNs)

/-- A structural fault in the labels. -/
inductive Defect
  /-- "the sidecar declares no steps" -/
  | empty
  /-- "step … ends at or before it starts" -/
  | emptyWindow (step : Step)
  /-- "step indices do not follow the start times" -/
  | outOfOrder
  /-- "… and … overlap by … s" -/
  | overlap (earlier later : Step)
  /-- "more than one window named …" -/
  | duplicateLabel (labels : List String)
  deriving DecidableEq

/-- The steps by their start times; `sorted` is stable. -/
def ordered (steps : List Step) : List Step :=
  steps.insertionSort fun a b => a.startNs ≤ b.startNs

/-- The neighbours that overlap. -/
def overlaps (steps : List Step) : List Defect :=
  ((steps.zip steps.tail).filter fun pair => pair.2.startNs < pair.1.endNs).map fun pair =>
    .overlap pair.1 pair.2

/-- `named` -/
def named (steps : List Step) (label : String) : List Step :=
  steps.filter fun step => step.label = label

/-- The labels of more than one window, sorted. -/
def duplicated (steps : List Step) : List String :=
  ((steps.filter fun step => 1 < (named steps step.label).length).map Step.label).dedup.insertionSort
    fun a b => a ≤ b

/-- `defects` -/
def defects (steps : List Step) : List Defect :=
  if steps = [] then [.empty]
  else
    ((steps.filter fun step => step.endNs ≤ step.startNs).map .emptyWindow) ++
    (if (ordered steps).map Step.index ≠ steps.map Step.index then [.outOfOrder] else []) ++
    overlaps (ordered steps) ++
    (if duplicated steps = [] then [] else [.duplicateLabel (duplicated steps)])

/-- `step_at` -/
def stepAt (steps : List Step) (sampleNs : Option ℤ) : Option Step :=
  match sampleNs with
  | none => none
  | some sampleNs => steps.find? fun step => step.contains sampleNs

/-! ### Neighbours and pairs -/

/-- Two windows have no time in common. -/
def Apart (a b : Step) : Prop := ∀ t, ¬ (a.contains t = true ∧ b.contains t = true)

/-- A window ends after it starts. -/
def Proper (step : Step) : Prop := step.startNs < step.endNs

theorem contains_iff {step : Step} {t : ℤ} :
    step.contains t = true ↔ step.startNs ≤ t ∧ t < step.endNs := by
  rw [Step.contains, Bool.and_eq_true, decide_eq_true_eq, decide_eq_true_eq]

theorem Apart.symm {a b : Step} (h : Apart a b) : Apart b a := fun t ht => h t ht.symm

/-- Of two windows, the one that starts first has ended when the other starts. -/
theorem apart_iff {a b : Step} (hb : Proper b) (hle : a.startNs ≤ b.startNs) :
    Apart a b ↔ a.endNs ≤ b.startNs := by
  constructor
  · intro h
    by_contra hlt
    refine h b.startNs ⟨contains_iff.mpr ⟨hle, ?_⟩, contains_iff.mpr ⟨le_rfl, hb⟩⟩
    omega
  · intro h t ht
    have hta := contains_iff.mp ht.1
    have htb := contains_iff.mp ht.2
    omega

theorem ordered_perm (steps : List Step) : (ordered steps).Perm steps :=
  List.perm_insertionSort _ _

theorem pairwise_ordered (steps : List Step) :
    (ordered steps).Pairwise fun a b => a.startNs ≤ b.startNs := by
  have htotal : Std.Total fun a b : Step => a.startNs ≤ b.startNs :=
    ⟨fun a b => le_total a.startNs b.startNs⟩
  have htrans : IsTrans Step fun a b => a.startNs ≤ b.startNs :=
    ⟨fun _ _ _ hab hbc => le_trans hab hbc⟩
  exact List.pairwise_insertionSort _ steps

/-- No neighbours overlap. -/
theorem overlaps_eq_nil_iff (steps : List Step) :
    overlaps steps = [] ↔ steps.IsChain fun a b => a.endNs ≤ b.startNs := by
  rw [overlaps, List.map_eq_nil_iff, List.filter_eq_nil_iff]
  induction steps with
  | nil => simp
  | cons a rest ih =>
    cases rest with
    | nil => simp
    | cons b rest =>
      rw [List.isChain_cons_cons, ← ih]
      simp

/-- In the order of the start times, proper windows whose neighbours do not overlap end before any
later one starts. -/
theorem pairwise_of_isChain {steps : List Step} (hproper : ∀ step ∈ steps, Proper step)
    (h : steps.IsChain fun a b => a.endNs ≤ b.startNs) :
    steps.Pairwise fun a b => a.endNs ≤ b.startNs := by
  induction steps with
  | nil => exact List.Pairwise.nil
  | cons a rest ih =>
    have hrest := ih (fun step hstep => hproper step (List.mem_cons_of_mem _ hstep)) h.tail
    refine List.pairwise_cons.mpr ⟨fun c hc => ?_, hrest⟩
    cases rest with
    | nil => cases hc
    | cons b rest =>
      have hab := (List.isChain_cons_cons.mp h).1
      rcases List.mem_cons.mp hc with rfl | hc
      · exact hab
      · -- The window in between ends after it starts.
        have hb : b.startNs < b.endNs := hproper b (by simp)
        have hbc := List.rel_of_pairwise_cons hrest hc
        omega

/-- **Neighbours and pairs**: proper windows are pairwise disjoint iff no neighbours overlap. -/
theorem pairwise_apart_iff {steps : List Step} (hproper : ∀ step ∈ steps, Proper step) :
    overlaps (ordered steps) = [] ↔ steps.Pairwise Apart := by
  have hproper' : ∀ step ∈ ordered steps, Proper step := fun step hstep =>
    hproper step ((ordered_perm steps).mem_iff.mp hstep)
  rw [overlaps_eq_nil_iff, ← (ordered_perm steps).pairwise_iff fun {_ _} h => Apart.symm h]
  have hsorted := pairwise_ordered steps
  constructor
  · intro h
    refine (hsorted.and (pairwise_of_isChain hproper' h)).imp_of_mem ?_
    intro a b _ hb hab
    exact (apart_iff (hproper' b hb) hab.1).mpr hab.2
  · intro h
    refine ((hsorted.and h).imp_of_mem ?_).isChain
    intro a b _ hb hab
    exact (apart_iff (hproper' b hb) hab.1).mp hab.2

/-! ### Labels -/

/-- No label is duplicated. -/
theorem duplicated_eq_nil_iff (steps : List Step) :
    duplicated steps = [] ↔ (steps.map Step.label).Nodup := by
  have hnil : duplicated steps = [] ↔ ∀ step ∈ steps, (named steps step.label).length ≤ 1 := by
    rw [duplicated, ← List.length_eq_zero_iff, List.length_insertionSort, List.length_eq_zero_iff,
      List.dedup_eq_nil, List.map_eq_nil_iff, List.filter_eq_nil_iff]
    simp
  have hcount : ∀ label, (named steps label).length = (steps.map Step.label).count label := by
    intro label
    rw [named, List.count_eq_countP, List.countP_map, List.countP_eq_length_filter]
    congr 1
  rw [hnil, List.nodup_iff_count_le_one]
  constructor
  · intro h label
    by_cases hmem : label ∈ steps.map Step.label
    · obtain ⟨step, hstep, rfl⟩ := List.mem_map.mp hmem
      rw [← hcount]
      exact h step hstep
    · rw [List.count_eq_zero_of_not_mem hmem]
      exact Nat.zero_le 1
  · intro h step _
    rw [hcount]
    exact h step.label

/-! ### Lists without defects -/

/-- What `defects` asks for, apart from the order. -/
structure Base (steps : List Step) : Prop where
  nonempty : steps ≠ []
  proper : ∀ step ∈ steps, Proper step
  apart : steps.Pairwise Apart
  labels : (steps.map Step.label).Nodup

/-- The indices in the order of the start times are those in the order of the list. -/
def ListedInOrder (steps : List Step) : Prop :=
  (ordered steps).map Step.index = steps.map Step.index

/-- The indices strictly increase with the start times. -/
def Increasing (steps : List Step) : Prop :=
  ∀ a ∈ steps, ∀ b ∈ steps, a.startNs < b.startNs → a.index < b.index

/-- **A list without defects.** -/
theorem defects_eq_nil_iff (steps : List Step) :
    defects steps = [] ↔ Base steps ∧ ListedInOrder steps := by
  rw [defects]
  by_cases hempty : steps = []
  · rw [if_pos hempty]
    refine ⟨fun h => (by cases h), fun h => absurd hempty h.1.nonempty⟩
  rw [if_neg hempty, List.append_eq_nil_iff, List.append_eq_nil_iff, List.append_eq_nil_iff,
    List.map_eq_nil_iff, List.filter_eq_nil_iff]
  have hproper : (∀ step ∈ steps, ¬ decide (step.endNs ≤ step.startNs) = true) ↔
      ∀ step ∈ steps, Proper step := by
    simp [Proper]
  have horder : (if (ordered steps).map Step.index ≠ steps.map Step.index then [Defect.outOfOrder]
      else []) = [] ↔ ListedInOrder steps := by
    simp [ListedInOrder]
  have hlabels : (if duplicated steps = [] then [] else
      [Defect.duplicateLabel (duplicated steps)]) = [] ↔ (steps.map Step.label).Nodup := by
    rw [← duplicated_eq_nil_iff]
    simp
  -- Each check of the list is one condition.
  rw [hproper, horder, hlabels]
  constructor
  · rintro ⟨⟨⟨hproper, horder⟩, hoverlaps⟩, hlabels⟩
    exact ⟨⟨hempty, hproper, (pairwise_apart_iff hproper).mp hoverlaps, hlabels⟩, horder⟩
  · rintro ⟨hbase, horder⟩
    exact ⟨⟨⟨hbase.proper, horder⟩, (pairwise_apart_iff hbase.proper).mpr hbase.apart⟩,
      hbase.labels⟩

/-- **A sample time lies in at most one window**, which `step_at` returns. -/
theorem stepAt_of_contains {steps : List Step} (h : steps.Pairwise Apart) {step : Step}
    (hstep : step ∈ steps) {t : ℤ} (ht : step.contains t = true) :
    stepAt steps (some t) = some step := by
  rw [stepAt]
  induction steps with
  | nil => cases hstep
  | cons a rest ih =>
    rw [List.pairwise_cons] at h
    rcases List.mem_cons.mp hstep with rfl | hstep
    · simp only [List.find?_cons, ht]
    · have ha : ¬ a.contains t = true := fun ha => h.1 step hstep t ⟨ha, ht⟩
      simp only [List.find?_cons, ha]
      exact ih h.2 hstep

/-! ### Exactness -/

/-- The list is non-empty, every window ends after it starts, the windows are pairwise disjoint, the
labels pairwise distinct, and the indices strictly increase with the start times. -/
def WellFormed (steps : List Step) : Prop := Base steps ∧ Increasing steps

/-- The judgement of a list is exact: it has no defects iff it is well formed, and then every sample
time lies in at most one window, which `step_at` returns. -/
def Exact (steps : List Step) : Prop :=
  (defects steps = [] ↔ WellFormed steps) ∧
    (defects steps = [] → ∀ t, ∀ step ∈ steps, step.contains t = true →
      stepAt steps (some t) = some step ∧
        ∀ other ∈ steps, other.contains t = true → other = step)

/-- The steps are listed by strictly increasing index. -/
def ListedByIndex (steps : List Step) : Prop := steps.Pairwise fun a b => a.index < b.index

/-- The steps are listed by their start times. -/
def ListedByStart (steps : List Step) : Prop := steps.Pairwise fun a b => a.startNs ≤ b.startNs

/-- The place that a step takes by its start time. -/
def rank (steps : List Step) (step : Step) : ℕ :=
  (steps.filter fun other => other.startNs < step.startNs).length

/-- A step has another index than the one that is listed in the place it takes by its start time. -/
def Misplaced (steps : List Step) : Prop :=
  ∃ step ∈ steps, ∃ listed, steps[rank steps step]? = some listed ∧ listed.index ≠ step.index

/-- The start times of disjoint windows are distinct. -/
theorem Base.strict {steps : List Step} (h : Base steps) :
    (ordered steps).Pairwise fun a b => a.startNs < b.startNs := by
  have hapart := ((ordered_perm steps).pairwise_iff fun {_ _} h => Apart.symm h).mpr h.apart
  refine ((pairwise_ordered steps).and hapart).imp_of_mem ?_
  intro a b ha hb hab
  have hproper : ∀ c ∈ ordered steps, c.startNs < c.endNs := fun c hc =>
    h.proper c ((ordered_perm steps).mem_iff.mp hc)
  have hends := (apart_iff (hproper b hb) hab.1).mp hab.2
  exact (hproper a ha).trans_le hends

/-- In the order of the start times every step stands in its place. -/
theorem Base.rank_eq {steps : List Step} (h : Base steps) {i : ℕ} {step : Step}
    (hi : (ordered steps)[i]? = some step) : rank steps step = i := by
  rw [rank, ← ((ordered_perm steps).filter _).length_eq]
  obtain ⟨hlt, rfl⟩ := List.getElem?_eq_some_iff.mp hi
  have hsplit : (ordered steps).take i ++ (ordered steps)[i] :: (ordered steps).drop (i + 1) =
      ordered steps := by
    rw [← List.drop_eq_getElem_cons hlt, List.take_append_drop]
  have hstrict := h.strict
  generalize (ordered steps)[i] = step at hsplit
  rw [← hsplit] at hstrict ⊢
  obtain ⟨-, hafter, hbefore⟩ := List.pairwise_append.mp hstrict
  -- exactly the steps before this one start earlier
  have htake : ((ordered steps).take i).filter (fun other => other.startNs < step.startNs) =
      (ordered steps).take i :=
    List.filter_eq_self.mpr fun a ha => decide_eq_true (hbefore a ha step List.mem_cons_self)
  have hdrop : (step :: (ordered steps).drop (i + 1)).filter
      (fun other => other.startNs < step.startNs) = [] := by
    refine List.filter_eq_nil_iff.mpr fun a ha => ?_
    rcases List.mem_cons.mp ha with rfl | ha
    · simp
    · have hlater := List.rel_of_pairwise_cons hafter ha
      simpa using hlater.le
  rw [List.filter_append, htake, hdrop, List.append_nil, List.length_take, min_eq_left hlt.le]

/-- **The comparison of the code**: the two lists of indices differ iff a step is misplaced. -/
theorem Base.listedInOrder_iff {steps : List Step} (h : Base steps) :
    ListedInOrder steps ↔ ¬ Misplaced steps := by
  have hlength : (ordered steps).length = steps.length := (ordered_perm steps).length_eq
  constructor
  · rintro horder ⟨step, hstep, listed, hlisted, hne⟩
    obtain ⟨i, hi⟩ := List.getElem?_of_mem ((ordered_perm steps).mem_iff.mpr hstep)
    rw [h.rank_eq hi] at hlisted
    have hat := congrArg (fun indices : List ℤ => indices[i]?) horder
    simp only [List.getElem?_map, hi, hlisted, Option.map_some, Option.some_inj] at hat
    exact hne hat.symm
  · intro hplaced
    refine List.ext_getElem (by simp [hlength]) fun i hi hi' => ?_
    rw [List.length_map] at hi hi'
    rw [List.getElem_map, List.getElem_map]
    by_contra hne
    have hrank := h.rank_eq (List.getElem?_eq_getElem hi)
    refine hplaced ⟨(ordered steps)[i], (ordered_perm steps).mem_iff.mp (List.getElem_mem hi),
      steps[i], ?_, fun heq => hne heq.symm⟩
    rw [hrank, List.getElem?_eq_getElem hi']

/-- The indices increase with the start times iff they do so in the order of these. -/
theorem Base.increasing_iff {steps : List Step} (h : Base steps) :
    Increasing steps ↔ ((ordered steps).map Step.index).Pairwise (· < ·) := by
  rw [List.pairwise_map]
  constructor
  · intro hincreasing
    refine h.strict.imp_of_mem fun ha hb hab => ?_
    exact hincreasing _ ((ordered_perm steps).mem_iff.mp ha) _
      ((ordered_perm steps).mem_iff.mp hb) hab
  · intro hindices a ha b hb hab
    have hboth := h.strict.and hindices
    have hforward : (ordered steps).Pairwise fun a b => a.startNs < b.startNs → a.index < b.index :=
      hboth.imp fun hab _ => hab.2
    have hbackward : (ordered steps).Pairwise
        (flip fun a b => a.startNs < b.startNs → a.index < b.index) :=
      hboth.imp fun hab hba => absurd hba (lt_asymm hab.1)
    exact hforward.forall_of_forall_of_flip (fun x _ hlt => absurd hlt (lt_irrefl _)) hbackward
      ((ordered_perm steps).mem_iff.mpr ha) ((ordered_perm steps).mem_iff.mpr hb) hab

/-- With distinct indices, no step is misplaced iff the steps are listed by their start times. -/
theorem Base.misplaced_iff {steps : List Step} (h : Base steps)
    (hindices : (steps.map Step.index).Nodup) : Misplaced steps ↔ ¬ ListedByStart steps := by
  rw [← not_iff_not, not_not, ← h.listedInOrder_iff]
  constructor
  · intro horder
    have hsame : ordered steps = steps := by
      have hlength : (ordered steps).length = steps.length := (ordered_perm steps).length_eq
      refine List.ext_getElem hlength fun i hi hi' => ?_
      have hat := congrArg (fun indices : List ℤ => indices[i]?) horder
      simp only [List.getElem?_map, List.getElem?_eq_getElem hi, List.getElem?_eq_getElem hi',
        Option.map_some, Option.some_inj] at hat
      exact List.inj_on_of_nodup_map hindices
        ((ordered_perm steps).mem_iff.mp (List.getElem_mem hi)) (List.getElem_mem hi') hat
    rw [ListedByStart, ← hsame]
    exact pairwise_ordered steps
  · intro hlisted
    rw [ListedInOrder, ordered, List.Pairwise.insertionSort_eq hlisted]

/-- Listed by index, the steps are in the order of their start times iff their indices increase
with these. -/
theorem Base.listedInOrder_iff_increasing {steps : List Step} (h : Base steps)
    (hlisted : ListedByIndex steps) : ListedInOrder steps ↔ Increasing steps := by
  have hindices : (steps.map Step.index).Pairwise (· < ·) := List.pairwise_map.mpr hlisted
  rw [h.increasing_iff]
  constructor
  · intro horder
    rw [horder]
    exact hindices
  · intro hincreasing
    -- both lists are the sorted one
    exact ((ordered_perm steps).map Step.index).eq_of_pairwise
      (fun _ _ _ _ hab hba => absurd hba (lt_asymm hab)) hincreasing hindices

/-- **Label validation.**  The judgement of a list of steps is exact iff the list has one of the
other faults, or its steps are listed by strictly increasing index, or its indices do not increase
with the start times and some step is misplaced; which, for distinct indices, says that the steps
are not listed by their start times. -/
theorem label_validation (steps : List Step) :
    (Exact steps ↔
      (Base steps → ListedByIndex steps ∨ ¬ Increasing steps ∧ Misplaced steps)) ∧
    (Base steps → (steps.map Step.index).Nodup → (Misplaced steps ↔ ¬ ListedByStart steps)) := by
  refine ⟨⟨fun hexact hbase => ?_, fun h => ⟨?_, ?_⟩⟩, fun hbase => hbase.misplaced_iff⟩
  · have hiff := hexact.1
    rw [defects_eq_nil_iff, WellFormed, and_congr_right_iff] at hiff
    by_cases hincreasing : Increasing steps
    · -- both lists of indices are the increasing one
      have horder := (hiff hbase).mpr hincreasing
      have hindices := hbase.increasing_iff.mp hincreasing
      rw [horder] at hindices
      exact .inl (List.pairwise_map.mp hindices)
    · refine .inr ⟨hincreasing, ?_⟩
      by_contra hplaced
      exact hincreasing ((hiff hbase).mp (hbase.listedInOrder_iff.mpr hplaced))
  · rw [defects_eq_nil_iff, WellFormed, and_congr_right_iff]
    intro hbase
    rcases h hbase with hlisted | ⟨hincreasing, hmisplaced⟩
    · exact hbase.listedInOrder_iff_increasing hlisted
    · exact iff_of_false (fun horder => hbase.listedInOrder_iff.mp horder hmisplaced) hincreasing
  · intro hnil t step hstep ht
    have hapart := ((defects_eq_nil_iff steps).mp hnil).1.apart
    have hat := stepAt_of_contains hapart hstep ht
    refine ⟨hat, fun other hother hother' => ?_⟩
    have hat' := stepAt_of_contains hapart hother hother'
    rw [hat, Option.some_inj] at hat'
    exact hat'.symm

/-- Two steps whose indices run against the start times have no defect. -/
theorem reversed_indices :
    defects [⟨1, "rest", 0, 10, true⟩, ⟨0, "fist", 10, 20, true⟩] = [] ∧
    ¬ Exact [⟨1, "rest", 0, 10, true⟩, ⟨0, "fist", 10, 20, true⟩] := by
  have hnil : defects [⟨1, "rest", 0, 10, true⟩, ⟨0, "fist", 10, 20, true⟩] = [] := by decide
  refine ⟨hnil, fun h => ?_⟩
  have hincreasing := (h.1.mp hnil).2 ⟨1, "rest", 0, 10, true⟩ (by simp)
    ⟨0, "fist", 10, 20, true⟩ (by simp) (by decide)
  exact absurd hincreasing (by decide)

end StepTimeline
