/-
The report of a conformance check.

Every check gives an outcome.  A result whose preconditions failed is turned into "cannot conclude"
before the verdict is computed from what is left; the propagation goes round the checks until a pass
changes nothing.

* `suppressDependents`, `aggregate`, `evaluate` — the functions of the report;
* `Suppressed` — a failed check is reached along the checks that were run;
* `mem_blocked_iff` — what the propagation blocks, whatever the order of the checks;
* `exists_root_failure` — along an acyclic relation a hidden failure leads to one that is not;
* `conformance_verdict` — suppression and verdict together.
-/
import IsaacTeleop.AcyclicEquations
import IsaacTeleop.BoundedLoop
import IsaacTeleop.OrderedDict

namespace CheckReport

/-! ### Checks and results -/

/-- `Status` -/
inductive Status
  | pass
  | fail
  | insufficientData
  deriving DecidableEq

/-- `Severity` -/
inductive Severity
  | hard
  | soft
  | advisory
  deriving DecidableEq

/-- `Attribution` -/
inductive Attribution
  | device
  | performance
  deriving DecidableEq

/-- `Verdict` -/
inductive Verdict
  | pass
  | fail
  | retake
  | insufficientData
  deriving DecidableEq

/-- The class-level fields of a check. -/
structure Check where
  name : String
  group : String
  severity : Severity := .hard
  attribution : Attribution := .device
  summary : String := ""
  required : Bool := true
  judged : Bool := true
  dependsOn : List String := []

/-- `Outcome`, with its measurements of any type. -/
structure Outcome (α : Type) where
  status : Status
  detail : String := ""
  measurements : α
  attribution : Option Attribution := none

structure CheckResult (α : Type) where
  name : String
  group : String
  severity : Severity
  attribution : Attribution
  summary : String
  status : Status
  detail : String
  measurements : α
  required : Bool := true
  judged : Bool := true

variable {α : Type}

/-- `counts_toward_verdict` -/
def CheckResult.countsTowardVerdict (r : CheckResult α) : Bool := decide (r.severity ≠ .advisory)

/-! ### The functions of the report -/

abbrev Results (α : Type) := OrderedDict String (CheckResult α)

/-- The blocked checks, each with the check that blocks it. -/
abbrev Blocked := OrderedDict String String

/-- The first precondition that failed or is blocked. -/
def blocker (byName : Results α) (blocked : Blocked) (needs : List String) : Option String :=
  needs.find? fun requiredName =>
    match byName.get? requiredName with
    | none => false
    | some upstream => decide (upstream.status = .fail) || (blocked.get? requiredName).isSome

/-- One check of a pass. -/
def visit (byName : Results α) (s : Blocked × Bool) (entry : String × List String) :
    Blocked × Bool :=
  if (s.1.get? entry.1).isSome then s
  else
    match blocker byName s.1 entry.2 with
    | none => s
    | some requiredName => (s.1.insert entry.1 requiredName, true)

/-- A pass of the `while` loop over the dependencies; the loop leaves when nothing changed. -/
def pass (byName : Results α) (dependencies : List (String × List String)) (blocked : Blocked) :
    Blocked ⊕ Blocked :=
  match dependencies.foldl (visit byName) (blocked, false) with
  | (blocked', true) => .inl blocked'
  | (blocked', false) => .inr blocked'

/-- A blocked result. -/
def suppress (blocked : Blocked) (result : CheckResult α) : CheckResult α :=
  match blocked.get? result.name with
  | none => result
  | some upstream =>
    if result.status = .insufficientData then result
    else
      { result with
        status := .insufficientData
        detail := "not judged: " ++ upstream ++
          " failed, so this measurement would describe the wrong frames" }

def byName (results : List (CheckResult α)) : Results α :=
  results.foldl (fun d result => d.insert result.name result) ∅

def dependencies (checks : List Check) : OrderedDict String (List String) :=
  checks.foldl (fun d check => d.insert check.name check.dependsOn) ∅

/-- `suppress_dependents`, with a bound on the passes of its loop -/
def suppressDependents (fuel : ℕ) (results : List (CheckResult α)) (checks : List Check) :
    Option (List (CheckResult α)) :=
  (BoundedLoop.run (pass (byName results) (dependencies checks).entries) fuel ∅).map fun blocked =>
    results.map (suppress blocked)

/-- `aggregate` -/
def aggregate (results : List (CheckResult α)) : Verdict :=
  let counted := results.filter CheckResult.countsTowardVerdict
  if counted.any fun r => decide (r.status = .fail ∧ r.attribution = .device) then .fail
  else if counted.any fun r => decide (r.status = .fail ∧ r.attribution = .performance) then .retake
  else if counted.any fun r => decide (r.status = .insufficientData) && r.required then
    .insufficientData
  else if ! counted.any fun r => decide (r.status = .pass ∨ r.status = .fail) then .insufficientData
  else .pass

/-- The result of a check and its outcome. -/
def resultOf (active : Check × Outcome α) : CheckResult α where
  name := active.1.name
  group := active.1.group
  severity := active.1.severity
  attribution := active.2.attribution.getD active.1.attribution
  judged := active.1.judged
  summary := active.1.summary
  status := active.2.status
  detail := active.2.detail
  measurements := active.2.measurements
  required := active.1.required

/-- `evaluate`, from the outcomes of the checks -/
def evaluate (fuel : ℕ) (active : List (Check × Outcome α)) : Option (List (CheckResult α)) :=
  suppressDependents fuel (active.map resultOf) (active.map Prod.fst)

/-! ### What a pass does -/

section Passes

variable (results : Results α)

/-- A visit changes nothing, or blocks one more check. -/
theorem visit_cases (s : Blocked × Bool) (entry : String × List String) :
    (visit results s entry = s ∧
      (s.1.get? entry.1 ≠ none ∨ blocker results s.1 entry.2 = none)) ∨
    ∃ requiredName, s.1.get? entry.1 = none ∧ blocker results s.1 entry.2 = some requiredName ∧
      visit results s entry = (s.1.insert entry.1 requiredName, true) := by
  unfold visit
  cases hblocked : s.1.get? entry.1 with
  | some name => exact .inl ⟨rfl, .inl (by simp)⟩
  | none =>
    cases hblocker : blocker results s.1 entry.2 with
    | none => exact .inl ⟨rfl, .inr rfl⟩
    | some requiredName => exact .inr ⟨requiredName, rfl, rfl, rfl⟩

theorem length_insert_new {d : Blocked} {k : String} (v : String) (h : d.get? k = none) :
    (d.insert k v).entries.length = d.entries.length + 1 := by
  rw [OrderedDict.insert, dif_neg (OrderedDict.get?_eq_none.mp h)]
  simp

variable {results} in
/-- What a predicate on the blocked names keeps through a visit, it keeps through a pass. -/
theorem foldl_visit_induction {P : Blocked → Prop} {l : List (String × List String)}
    (hvisit : ∀ s : Blocked × Bool, ∀ entry ∈ l, P s.1 → P (visit results s entry).1)
    {s : Blocked × Bool} (hs : P s.1) : P (l.foldl (visit results) s).1 := by
  induction l generalizing s with
  | nil => exact hs
  | cons entry rest ih =>
    refine ih (fun s entry' hmem => hvisit s entry' (List.mem_cons_of_mem _ hmem)) ?_
    exact hvisit s entry List.mem_cons_self hs

/-- **A pass** that changes something blocks more checks; one that does not has visited every check
in vain. -/
theorem foldl_visit_cases (l : List (String × List String)) (s : Blocked × Bool) :
    (l.foldl (visit results) s = s ∧
      ∀ entry ∈ l, s.1.get? entry.1 ≠ none ∨ blocker results s.1 entry.2 = none) ∨
    (s.1.entries.length < (l.foldl (visit results) s).1.entries.length ∧
      (l.foldl (visit results) s).2 = true) := by
  induction l generalizing s with
  | nil => exact .inl ⟨rfl, fun _ h => absurd h List.not_mem_nil⟩
  | cons entry rest ih =>
    rw [List.foldl_cons]
    rcases visit_cases results s entry with ⟨hsame, hvain⟩ | ⟨requiredName, hnew, -, hchange⟩
    · rw [hsame]
      rcases ih s with ⟨heq, hrest⟩ | hmore
      · refine .inl ⟨heq, fun entry' hmem => ?_⟩
        rcases List.mem_cons.mp hmem with rfl | hmem
        · exact hvain
        · exact hrest entry' hmem
      · exact .inr hmore
    · -- A new entry makes the round count, and later ones only add to it.
      have hlength := length_insert_new requiredName hnew
      rw [hchange]
      rcases ih (s.1.insert entry.1 requiredName, true) with ⟨heq, -⟩ | ⟨hlt, htrue⟩
      · refine .inr ⟨?_, by rw [heq]⟩
        rw [heq]
        exact hlength ▸ Nat.lt_succ_self _
      · exact .inr ⟨lt_trans (hlength ▸ Nat.lt_succ_self _) hlt, htrue⟩

/-- **Everything a pass can do.** -/
theorem pass_cases (l : List (String × List String)) (blocked : Blocked) :
    (pass results l blocked = .inr blocked ∧
      ∀ entry ∈ l, blocked.get? entry.1 ≠ none ∨ blocker results blocked entry.2 = none) ∨
    ∃ blocked', pass results l blocked = .inl blocked' ∧
      blocked' = (l.foldl (visit results) (blocked, false)).1 ∧
      blocked.entries.length < blocked'.entries.length := by
  unfold pass
  rcases foldl_visit_cases results l (blocked, false) with
    ⟨heq, hvain⟩ | ⟨hlt, htrue⟩
  · rw [heq]
    exact .inl ⟨rfl, hvain⟩
  · refine .inr ⟨_, ?_, rfl, hlt⟩
    rw [← Prod.mk.eta (p := l.foldl (visit results) (blocked, false)), htrue]

end Passes

/-! ### What is suppressed -/

section Suppression

variable (active : List (Check × Outcome α))

/-- One `depends_on` step, to a check that was run. -/
def DependsOn (a b : String) : Prop :=
  (∃ x ∈ active, x.1.name = a ∧ b ∈ x.1.dependsOn) ∧ ∃ y ∈ active, y.1.name = b

/-- The check of this name failed. -/
def Failed (a : String) : Prop := ∃ x ∈ active, x.1.name = a ∧ x.2.status = .fail

/-- A failed check is reached through one or more `depends_on` steps along checks that were run. -/
def Suppressed (a : String) : Prop :=
  ∃ failed, Relation.TransGen (DependsOn active) a failed ∧ Failed active failed

variable {active}

theorem get?_byName (hnames : (active.map fun x => x.1.name).Nodup) (a : String) :
    (byName (active.map resultOf)).get? a = (active.find? fun x => x.1.name = a).map resultOf := by
  have hnodup : ((active.map resultOf).map CheckResult.name).Nodup := by
    rw [List.map_map]
    exact hnames
  rw [byName, OrderedDict.get?_index hnodup, List.find?_map]
  rfl

theorem find?_eq_of_mem (hnames : (active.map fun x => x.1.name).Nodup) {x : Check × Outcome α}
    (hx : x ∈ active) : active.find? (fun y => y.1.name = x.1.name) = some x := by
  rw [← OrderedDict.get?_index hnames]
  exact OrderedDict.get?_foldl_insert_of_mem (fun y : Check × Outcome α => y.1.name) (fun y => y)
    hnames hx ∅

theorem mem_dependencies (hnames : (active.map fun x => x.1.name).Nodup)
    {entry : String × List String} :
    entry ∈ (dependencies (active.map Prod.fst)).entries ↔
      ∃ x ∈ active, (x.1.name, x.1.dependsOn) = entry := by
  have hchecks : ((active.map Prod.fst).map Check.name).Nodup := by
    rw [List.map_map]
    exact hnames
  constructor
  · intro hmem
    rcases OrderedDict.get?_foldl_insert Check.name Check.dependsOn
        (OrderedDict.get?_of_mem hmem) with hempty | ⟨check, hcheck, hname, hneeds⟩
    · cases hempty
    · obtain ⟨x, hx, rfl⟩ := List.mem_map.mp hcheck
      exact ⟨x, hx, Prod.ext hname hneeds⟩
  · rintro ⟨x, hx, rfl⟩
    exact OrderedDict.mem_of_get? (OrderedDict.get?_foldl_insert_of_mem Check.name Check.dependsOn
      hchecks (List.mem_map_of_mem hx) ∅)

/-- A check that another one needs blocks it: it was run, and it failed or is blocked. -/
theorem blocker_isSome_iff (hnames : (active.map fun x => x.1.name).Nodup) (blocked : Blocked)
    (needs : List String) :
    (blocker (byName (active.map resultOf)) blocked needs).isSome = true ↔
      ∃ b ∈ needs, (∃ y ∈ active, y.1.name = b) ∧ (Failed active b ∨ blocked.get? b ≠ none) := by
  rw [blocker, List.find?_isSome]
  refine exists_congr fun b => and_congr_right fun _ => ?_
  rw [get?_byName hnames]
  cases hfind : active.find? fun x => x.1.name = b with
  | none =>
    rw [List.find?_eq_none] at hfind
    refine ⟨fun h => (by cases h), fun h => ?_⟩
    obtain ⟨⟨y, hy, hname⟩, -⟩ := h
    exact absurd (decide_eq_true hname) (hfind y hy)
  | some x =>
    have hx := List.mem_of_find?_eq_some hfind
    have hname : x.1.name = b := by simpa using List.find?_some hfind
    -- The names are distinct, so the check found is the one that is needed.
    have hfailed : Failed active b ↔ x.2.status = .fail := by
      refine ⟨fun ⟨y, hy, hy', hstatus⟩ => ?_, fun h => ⟨x, hx, hname, h⟩⟩
      subst hy'
      rw [find?_eq_of_mem hnames hy, Option.some_inj] at hfind
      exact hfind ▸ hstatus
    have hrun : ∃ y ∈ active, y.1.name = b := ⟨x, hx, hname⟩
    simp only [Option.map_some, resultOf, Bool.or_eq_true, decide_eq_true_eq, hfailed, hrun,
      true_and, Option.isSome_iff_ne_none]

/-- What holds between two passes: every blocked check is one of the checks, and suppressed. -/
structure Sound (active : List (Check × Outcome α)) (blocked : Blocked) : Prop where
  known : ∀ a ∈ blocked.keys, a ∈ (dependencies (active.map Prod.fst)).keys
  suppressed : ∀ a ∈ blocked.keys, Suppressed active a

theorem Sound.visit (hnames : (active.map fun x => x.1.name).Nodup) {s : Blocked × Bool}
    {entry : String × List String}
    (hentry : entry ∈ (dependencies (active.map Prod.fst)).entries) (h : Sound active s.1) :
    Sound active (visit (byName (active.map resultOf)) s entry).1 := by
  rcases visit_cases (byName (active.map resultOf)) s entry with
    ⟨hsame, -⟩ | ⟨requiredName, -, hblocker, hchange⟩
  · rw [hsame]
    exact h
  rw [hchange]
  obtain ⟨x, hx, hx'⟩ := (mem_dependencies hnames).mp hentry
  -- The check needs one that failed, or one that is suppressed itself.
  have hsuppressed : Suppressed active entry.1 := by
    obtain ⟨b, hb, hrun, hbad⟩ := (blocker_isSome_iff hnames s.1 entry.2).mp (by rw [hblocker]; rfl)
    have hstep : DependsOn active entry.1 b := by
      refine ⟨⟨x, hx, congrArg Prod.fst hx', ?_⟩, hrun⟩
      rw [show x.1.dependsOn = entry.2 from congrArg Prod.snd hx']
      exact hb
    rcases hbad with hfailed | hblocked
    · exact ⟨b, .single hstep, hfailed⟩
    · obtain ⟨failed, hpath, hfailed⟩ := h.suppressed b
        (OrderedDict.mem_keys.mpr (Option.ne_none_iff_exists'.mp hblocked))
      exact ⟨failed, .head hstep hpath, hfailed⟩
  constructor
  · intro a ha
    rcases OrderedDict.mem_keys_insert.mp ha with rfl | ha
    · exact List.mem_map_of_mem hentry
    · exact h.known a ha
  · intro a ha
    rcases OrderedDict.mem_keys_insert.mp ha with rfl | ha
    · exact hsuppressed
    · exact h.suppressed a ha

theorem Sound.empty : Sound active ∅ :=
  ⟨fun _ h => absurd h List.not_mem_nil, fun _ h => absurd h List.not_mem_nil⟩

/-- A pass keeps what it has blocked sound, and blocks more of finitely many checks. -/
theorem Sound.pass (hnames : (active.map fun x => x.1.name).Nodup) {blocked blocked' : Blocked}
    (h : Sound active blocked)
    (hpass : pass (byName (active.map resultOf)) (dependencies (active.map Prod.fst)).entries
      blocked = .inl blocked') :
    Sound active blocked' ∧
      (dependencies (active.map Prod.fst)).entries.length - blocked'.entries.length <
        (dependencies (active.map Prod.fst)).entries.length - blocked.entries.length := by
  rcases pass_cases (byName (active.map resultOf))
      (dependencies (active.map Prod.fst)).entries blocked with
    ⟨heq, -⟩ | ⟨blocked'', heq, hfold, hlt⟩
  · rw [heq] at hpass
    cases hpass
  · rw [heq, Sum.inl.injEq] at hpass
    subst hpass
    have hsound : Sound active blocked'' := by
      rw [hfold]
      exact foldl_visit_induction (P := Sound active)
        (fun s entry hentry hs => Sound.visit hnames hentry hs) h
    have hle : blocked''.keys.length ≤ (dependencies (active.map Prod.fst)).keys.length :=
      (List.subperm_of_subset blocked''.nodup hsound.known).length_le
    simp only [OrderedDict.keys, List.length_map] at hle
    exact ⟨hsound, by omega⟩

/-- **What is blocked when a pass changes nothing.** -/
theorem mem_blocked_iff (hnames : (active.map fun x => x.1.name).Nodup) {blocked : Blocked}
    (h : Sound active blocked)
    (hvain : ∀ entry ∈ (dependencies (active.map Prod.fst)).entries, blocked.get? entry.1 ≠ none ∨
      blocker (byName (active.map resultOf)) blocked entry.2 = none) (a : String) :
    blocked.get? a ≠ none ↔ Suppressed active a := by
  have hkeys : blocked.get? a ≠ none ↔ a ∈ blocked.keys := by
    rw [OrderedDict.mem_keys, Option.ne_none_iff_exists']
  rw [hkeys]
  refine ⟨h.suppressed a, ?_⟩
  rintro ⟨failed, hpath, hfailed⟩
  -- A check that needs a failed or a blocked one is blocked, from the end of the path backwards.
  have hstep : ∀ {a b}, DependsOn active a b → (Failed active b ∨ blocked.get? b ≠ none) →
      blocked.get? a ≠ none := by
    rintro a b ⟨⟨x, hx, rfl, hb⟩, hrun⟩ hbad
    refine (hvain _ ((mem_dependencies hnames).mpr ⟨x, hx, rfl⟩)).resolve_right fun hnone => ?_
    have hsome := (blocker_isSome_iff hnames blocked x.1.dependsOn).mpr ⟨b, hb, hrun, hbad⟩
    rw [hnone] at hsome
    cases hsome
  rw [← hkeys]
  induction hpath using Relation.TransGen.head_induction_on with
  | single hab => exact hstep hab (.inl hfailed)
  | head hab _ ih =>
    refine hstep hab (.inr (ih ?_))
    rw [OrderedDict.mem_keys, Option.ne_none_iff_exists']

/-- How a result is after the suppression: cannot conclude when it is suppressed, and as it was
otherwise. -/
structure After (active : List (Check × Outcome α)) (before after : CheckResult α) : Prop where
  name : after.name = before.name
  severity : after.severity = before.severity
  attribution : after.attribution = before.attribution
  required : after.required = before.required
  suppressed : Suppressed active before.name → after.status = .insufficientData
  same : ¬ Suppressed active before.name → after = before

theorem suppress_spec {blocked : Blocked} {result : CheckResult α}
    (h : blocked.get? result.name ≠ none ↔ Suppressed active result.name) :
    After active result (suppress blocked result) := by
  unfold suppress
  cases hget : blocked.get? result.name with
  | none =>
    have hnot : ¬ Suppressed active result.name := fun hs => h.mpr hs hget
    exact ⟨rfl, rfl, rfl, rfl, fun hs => absurd hs hnot, fun _ => rfl⟩
  | some upstream =>
    have hs : Suppressed active result.name := h.mp (by rw [hget]; simp)
    dsimp only
    split
    · exact ⟨rfl, rfl, rfl, rfl, fun _ => ‹_›, fun hnot => absurd hs hnot⟩
    · exact ⟨rfl, rfl, rfl, rfl, fun _ => rfl, fun hnot => absurd hs hnot⟩

/-- **The suppression** ends, and its results do not depend on the order of the checks. -/
theorem exists_suppressDependents (hnames : (active.map fun x => x.1.name).Nodup) {fuel : ℕ}
    (hfuel : active.length < fuel) :
    ∃ after, evaluate fuel active = some after ∧
      List.Forall₂ (After active) (active.map resultOf) after := by
  have hlength : (dependencies (active.map Prod.fst)).entries.length ≤ active.length := by
    have hsub : (dependencies (active.map Prod.fst)).keys ⊆ active.map fun x => x.1.name := by
      intro a ha
      obtain ⟨entry, hentry, rfl⟩ := List.mem_map.mp ha
      obtain ⟨x, hx, rfl⟩ := (mem_dependencies hnames).mp hentry
      exact List.mem_map_of_mem (f := fun x : Check × Outcome α => x.1.name) hx
    have hle := (List.subperm_of_subset (dependencies (active.map Prod.fst)).nodup hsub).length_le
    simpa [OrderedDict.keys] using hle
  obtain ⟨blocked, hrun⟩ : ∃ blocked, BoundedLoop.run (pass (byName (active.map resultOf))
      (dependencies (active.map Prod.fst)).entries) fuel ∅ = some blocked :=
    BoundedLoop.exists_run (Sound active)
      (fun blocked => (dependencies (active.map Prod.fst)).entries.length - blocked.entries.length)
      (fun _ _ hsound hpass => hsound.pass hnames hpass) Sound.empty
      (lt_of_le_of_lt (Nat.sub_le _ _) (lt_of_le_of_lt hlength hfuel))
  obtain ⟨last, hsound, hexit⟩ := BoundedLoop.run_exit
    (fun _ _ hsound hpass => (Sound.pass hnames hsound hpass).1) Sound.empty hrun
  -- The last pass changed nothing.
  rcases pass_cases (byName (active.map resultOf))
      (dependencies (active.map Prod.fst)).entries last with
    ⟨heq, hvain⟩ | ⟨blocked', heq, -⟩
  · rw [heq, Sum.inr.injEq] at hexit
    subst hexit
    refine ⟨_, by rw [evaluate, suppressDependents, hrun, Option.map_some], ?_⟩
    rw [List.forall₂_map_right_iff, List.forall₂_same]
    exact fun result _ => suppress_spec (mem_blocked_iff hnames hsound hvain result.name)
  · rw [heq] at hexit
    cases hexit

end Suppression

/-! ### The verdict -/

theorem exists_mem_of_forall₂ {β γ : Type} {R : β → γ → Prop} {l : List β} {l' : List γ}
    (h : List.Forall₂ R l l') {b : β} (hb : b ∈ l) : ∃ c ∈ l', R b c := by
  induction h with
  | nil => cases hb
  | cons hr _ ih =>
    rcases List.mem_cons.mp hb with rfl | hb
    · exact ⟨_, List.mem_cons_self, hr⟩
    · obtain ⟨c, hc, hr⟩ := ih hb
      exact ⟨c, List.mem_cons_of_mem _ hc, hr⟩

/-- Some counted result failed and is blamed on the device. -/
theorem aggregate_eq_fail_iff (results : List (CheckResult α)) :
    aggregate results = .fail ↔ ∃ r ∈ results, r.countsTowardVerdict = true ∧
      r.attribution = .device ∧ r.status = .fail := by
  have hany : ((results.filter CheckResult.countsTowardVerdict).any fun r =>
      decide (r.status = .fail ∧ r.attribution = .device)) = true ↔
      ∃ r ∈ results, r.countsTowardVerdict = true ∧ r.attribution = .device ∧
        r.status = .fail := by
    simp only [List.any_eq_true, List.mem_filter, decide_eq_true_eq]
    constructor
    · rintro ⟨r, ⟨hr, hcounts⟩, hstatus, hattribution⟩
      exact ⟨r, hr, hcounts, hattribution, hstatus⟩
    · rintro ⟨r, hr, hcounts, hattribution, hstatus⟩
      exact ⟨r, ⟨hr, hcounts⟩, hstatus, hattribution⟩
  rw [← hany, aggregate]
  split
  · rename_i h
    exact ⟨fun _ => h, fun _ => rfl⟩
  · rename_i h
    refine ⟨fun hverdict => ?_, fun h' => absurd h' h⟩
    split at hverdict
    · cases hverdict
    · split at hverdict
      · cases hverdict
      · split at hverdict <;> cases hverdict

/-- A report passes only without a counted failure. -/
theorem not_failed_of_aggregate_pass {results : List (CheckResult α)}
    (h : aggregate results = .pass) {r : CheckResult α} (hr : r ∈ results)
    (hcounts : r.countsTowardVerdict = true) : r.status ≠ .fail := by
  intro hstatus
  have hmem : r ∈ results.filter CheckResult.countsTowardVerdict :=
    List.mem_filter.mpr ⟨hr, hcounts⟩
  rw [aggregate] at h
  split at h
  · cases h
  · rename_i hdevice
    split at h
    · cases h
    · rename_i hperformance
      -- The failure is blamed on the device or on the performance.
      cases hattribution : r.attribution with
      | device => exact hdevice (List.any_eq_true.mpr ⟨r, hmem, by simp [hstatus, hattribution]⟩)
      | performance =>
        exact hperformance (List.any_eq_true.mpr ⟨r, hmem, by simp [hstatus, hattribution]⟩)

section Verdict

variable {active : List (Check × Outcome α)}

/-- No check reaches itself. -/
def Acyclic (active : List (Check × Outcome α)) : Prop :=
  ∀ a, ¬ Relation.TransGen (DependsOn active) a a

/-- No advisory check is depended on. -/
def NoAdvisoryNeeded (active : List (Check × Outcome α)) : Prop :=
  ∀ x ∈ active, ∀ y ∈ active, y.1.name ∈ x.1.dependsOn → y.1.severity ≠ .advisory

/-- The end of a path is the name of a check that another one needs. -/
theorem needed_of_path {a b : String} (h : Relation.TransGen (DependsOn active) a b) :
    (∃ y ∈ active, y.1.name = b) ∧ ∃ x ∈ active, b ∈ x.1.dependsOn := by
  cases h with
  | single h => exact ⟨h.2, h.1.imp fun x hx => ⟨hx.1, hx.2.2⟩⟩
  | tail _ h => exact ⟨h.2, h.1.imp fun x hx => ⟨hx.1, hx.2.2⟩⟩

/-- **Along an acyclic relation** a suppressed check reaches a failed one that is not suppressed. -/
theorem exists_root_failure (hacyclic : Acyclic active) {a : String} (h : Suppressed active a) :
    ∃ root, Relation.TransGen (DependsOn active) a root ∧ Failed active root ∧
      ¬ Suppressed active root := by
  obtain ⟨failed, hpath, hfailed⟩ := h
  have hfinite : { b | Relation.TransGen (DependsOn active) a b ∧ Failed active b }.Finite := by
    refine (List.finite_toSet (active.map fun x => x.1.name)).subset ?_
    rintro b ⟨-, x, hx, rfl, -⟩
    exact List.mem_map_of_mem (f := fun x : Check × Outcome α => x.1.name) hx
  -- Take a failed check, reached from here, from which no other such check is reached.
  obtain ⟨root, ⟨hroot, hrootFailed⟩, hlast⟩ :=
    AcyclicEquations.exists_last hacyclic hfinite ⟨failed, hpath, hfailed⟩
  refine ⟨root, hroot, hrootFailed, ?_⟩
  rintro ⟨next, hnext, hnextFailed⟩
  exact hlast next ⟨hroot.trans hnext, hnextFailed⟩ hnext

/-- **Conformance suppression and verdict.**  For checks with distinct names, the suppression ends
and turns into "cannot conclude" exactly the results from which a failed check is reached; and along
an acyclic relation without advisory preconditions, the verdict is PASS only if no counted check
failed before the suppression, and FAIL exactly when a counted check that was not suppressed failed
and is blamed on the device. -/
theorem conformance_verdict (active : List (Check × Outcome α))
    (hnames : (active.map fun x => x.1.name).Nodup) :
    ∃ after, (∀ fuel, active.length < fuel → evaluate fuel active = some after) ∧
      List.Forall₂ (After active) (active.map resultOf) after ∧
      (Acyclic active → NoAdvisoryNeeded active →
        (aggregate after = .pass →
          ∀ r ∈ active.map resultOf, r.countsTowardVerdict = true → r.status ≠ .fail) ∧
        (aggregate after = .fail ↔ ∃ r ∈ active.map resultOf, ¬ Suppressed active r.name ∧
          r.countsTowardVerdict = true ∧ r.attribution = .device ∧ r.status = .fail)) := by
  obtain ⟨after, hafter, hresults⟩ := exists_suppressDependents hnames (Nat.lt_succ_self _)
  refine ⟨after, fun fuel hfuel => ?_, hresults, fun hacyclic hadvisory => ?_⟩
  · obtain ⟨blocked, hrun, hmap⟩ := Option.map_eq_some_iff.mp hafter
    rw [evaluate, suppressDependents, BoundedLoop.run_of_le hrun hfuel, Option.map_some, hmap]
  -- A result that is not suppressed is one of the results after the suppression.
  have hkept : ∀ r ∈ active.map resultOf, ¬ Suppressed active r.name → r ∈ after := by
    intro r hr hnot
    obtain ⟨r', hr', hspec⟩ := exists_mem_of_forall₂ hresults hr
    rwa [hspec.same hnot] at hr'
  constructor
  · intro hpass r hr hcounts hfailed
    obtain ⟨x, hx, rfl⟩ := List.mem_map.mp hr
    by_cases hsuppressed : Suppressed active x.1.name
    · -- The root of the failure is depended on, so it is counted.
      obtain ⟨root, hpath, ⟨y, hy, rfl, hyFailed⟩, hroot⟩ := exists_root_failure hacyclic hsuppressed
      obtain ⟨-, x', hx', hneeded⟩ := needed_of_path hpath
      have hy' := hkept (resultOf y) (List.mem_map_of_mem hy) hroot
      have hseverity : (resultOf y).countsTowardVerdict = true :=
        decide_eq_true (hadvisory x' hx' y hy hneeded)
      exact not_failed_of_aggregate_pass hpass hy' hseverity hyFailed
    · exact not_failed_of_aggregate_pass hpass (hkept _ hr hsuppressed) hcounts hfailed
  · rw [aggregate_eq_fail_iff]
    constructor
    · rintro ⟨r', hr', hcounts, hattribution, hstatus⟩
      obtain ⟨r, hr, hspec⟩ := exists_mem_of_forall₂ hresults.flip hr'
      have hnot : ¬ Suppressed active r.name := by
        intro hs
        rw [hspec.suppressed hs] at hstatus
        cases hstatus
      obtain rfl := hspec.same hnot
      exact ⟨_, hr, hnot, hcounts, hattribution, hstatus⟩
    · rintro ⟨r, hr, hnot, hcounts, hattribution, hstatus⟩
      exact ⟨r, hkept r hr hnot, hcounts, hattribution, hstatus⟩

end Verdict

/-- A check of the label windows, and a measurement that depends on it and on an unknown one. -/
def labelledChecks : List (Check × Outcome Unit) :=
  [({ name := "posture.squat", group := "posture", dependsOn := ["segmentation.labels", "unknown"] },
      { status := .fail, measurements := () }),
    ({ name := "segmentation.labels", group := "posture", attribution := .performance },
      { status := .fail, measurements := () })]

theorem dependsOn_labelledChecks {a b : String} (h : DependsOn labelledChecks a b) :
    a = "posture.squat" ∧ b = "segmentation.labels" := by
  obtain ⟨⟨x, hx, rfl, hb⟩, y, hy, rfl⟩ := h
  simp only [labelledChecks, List.mem_cons, List.not_mem_nil, or_false] at hx hy
  rcases hx with rfl | rfl
  · rcases hy with rfl | rfl
    · exact absurd hb (by decide)
    · exact ⟨rfl, rfl⟩
  · cases hb

theorem labels_hide_the_measurement :
    (labelledChecks.map fun x => x.1.name).Nodup ∧ Acyclic labelledChecks ∧
    NoAdvisoryNeeded labelledChecks ∧
    (evaluate 3 labelledChecks).map (List.map CheckResult.status) =
      some [.insufficientData, .fail] ∧
    (evaluate 3 labelledChecks).map aggregate = some .retake ∧
    ∃ after, evaluate 3 labelledChecks = some after ∧ (aggregate after = .pass →
      ∀ r ∈ labelledChecks.map resultOf, r.countsTowardVerdict = true → r.status ≠ .fail) := by
  have hnames : (labelledChecks.map fun x => x.1.name).Nodup := by decide
  -- The only dependency leads to a check that needs nothing.
  have hacyclic : Acyclic labelledChecks := by
    intro a h
    obtain ⟨b, hab⟩ : ∃ b, DependsOn labelledChecks a b := by
      cases h using Relation.TransGen.head_induction_on with
      | single hab => exact ⟨_, hab⟩
      | head hab => exact ⟨_, hab⟩
    obtain ⟨-, x, hx, hneeded⟩ := needed_of_path h
    obtain ⟨rfl, -⟩ := dependsOn_labelledChecks hab
    simp only [labelledChecks, List.mem_cons, List.not_mem_nil, or_false] at hx
    rcases hx with rfl | rfl
    · exact absurd hneeded (by decide)
    · exact absurd hneeded (by decide)
  have hadvisory : NoAdvisoryNeeded labelledChecks := by
    intro x _ y hy _
    simp only [labelledChecks, List.mem_cons, List.not_mem_nil, or_false] at hy
    rcases hy with rfl | rfl <;> decide
  obtain ⟨after, hrun, -, hverdict⟩ := conformance_verdict labelledChecks hnames
  exact ⟨hnames, hacyclic, hadvisory, by decide, by decide, after, hrun 3 (by decide),
    (hverdict hacyclic hadvisory).1⟩

end CheckReport
