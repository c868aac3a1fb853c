/-
A graph accepted at construction never fails input validation when it runs.

Compound nodes are created one after the other by `connect` and `OutputCombiner`
over retargeters and earlier compound nodes; each call checks the selected output
types against the declared input types, optionality included.  At run time
`compute` checks the groups themselves, without their optionality.

* `Built.graph` — what such calls build is an acyclic graph;
* `Built.wellTyped` — the static checks, read off the accepted graph;
* `computeWithCache_conforms` — along a run every node's outputs are of its
  declared types;
* `built_graph_passes_validation` — only a `_compute_fn` can raise.
-/
import IsaacTeleop.CachedExecution

namespace RetargetGraph

variable {τ V σ ρ κ : Type}

/-- `output_types` of a compound node. -/
def compoundOutputTypes : CompoundNode τ ρ κ → RetargeterIoType τ
  | .subgraph _ _ outputTypes => outputTypes
  | .outputCombiner _ outputTypes => outputTypes

/-- `output_types` -/
def outputTypes (g : RetargetGraph τ V σ ρ κ) : NodeId ρ κ → RetargeterIoType τ
  | .retargeter r => (g.retargeter r).outputs
  | .compound c => compoundOutputTypes (g.compound c)

end RetargetGraph

/-! ### Construction -/

namespace GraphConstruction

open RetargetGraph

variable {τ V σ ρ : Type}

/-- The compound nodes created so far, oldest first; a node's identity is its
position. -/
abbrev Heap (τ ρ : Type) := List (CompoundNode τ ρ ℕ)

variable (retargeters : ρ → Retargeter τ V σ)

/-- `module.output_types()` of an existing object. -/
def outputTypes (heap : Heap τ ρ) : NodeId ρ ℕ → RetargeterIoType τ
  | .retargeter r => (retargeters r).outputs
  | .compound c => match heap[c]? with
    | some node => compoundOutputTypes node
    | none => ∅

/-- The objects that exist when the `c`-th compound node is created. -/
def OlderThan (c : ℕ) : NodeId ρ ℕ → Prop
  | .retargeter _ => True
  | .compound c' => c' < c

/-- The type check of one connection in `connect`. -/
def checkConnection [TensorType τ] (heap : Heap τ ρ) (self : Retargeter τ V σ) (inputName : String)
    (selector : OutputSelector ρ ℕ) : Except (GraphError τ) Unit :=
  match self.inputs.get? inputName with
  | none => .error (.keyError inputName)
  | some expectedType =>
    match (outputTypes retargeters heap selector.module).get? selector.outputName with
    | none => .error (.keyError selector.outputName)
    | some actualType =>
      match expectedType.checkCompatibility actualType with
      | .error e => .error (.incompatible e)
      | .ok () => .ok ()

/-- The loop of these checks. -/
def checkConnections [TensorType τ] (heap : Heap τ ρ) (self : Retargeter τ V σ) :
    List (String × OutputSelector ρ ℕ) → Except (GraphError τ) Unit
  | [] => .ok ()
  | (inputName, selector) :: rest =>
    match checkConnection retargeters heap self inputName selector with
    | .error e => .error e
    | .ok () => checkConnections heap self rest

/-- `BaseRetargeter.connect` -/
def connect [TensorType τ] (heap : Heap τ ρ) (r : ρ)
    (inputConnections : OrderedDict String (OutputSelector ρ ℕ)) :
    Except (GraphError τ) (CompoundNode τ ρ ℕ) :=
  let self := retargeters r
  let extra := inputConnections.keys.filter fun k => k ∉ self.inputs.keys
  if extra ≠ [] then .error (.extraConnections self.name extra)
  else
    let missingRequired := (self.inputs.entries.filter fun e =>
      e.1 ∉ inputConnections.keys && !e.2.isOptional).map Prod.fst
    if missingRequired ≠ [] then .error (.missingConnections self.name missingRequired)
    else match checkConnections retargeters heap self inputConnections.entries with
      | .error e => .error e
      | .ok () => .ok (.subgraph r inputConnections self.outputs)

/-- The loop of `OutputCombiner.__init__` that builds the output types. -/
def combineTypes (heap : Heap τ ρ) : List (String × OutputSelector ρ ℕ) → RetargeterIoType τ →
    Except (GraphError τ) (RetargeterIoType τ)
  | [], types => .ok types
  | (customName, selector) :: rest, types =>
    let sourceTypes := outputTypes retargeters heap selector.module
    match sourceTypes.get? selector.outputName with
    | none => .error (.outputNotFound selector.outputName sourceTypes.keys)
    | some t => combineTypes heap rest (types.insert customName t)

/-- `OutputCombiner.__init__` -/
def outputCombiner (heap : Heap τ ρ) (outputMapping : OrderedDict String (OutputSelector ρ ℕ)) :
    Except (GraphError τ) (CompoundNode τ ρ ℕ) :=
  if outputMapping.entries = [] then .error .emptyMapping
  else match combineTypes retargeters heap outputMapping.entries ∅ with
    | .error e => .error e
    | .ok types => .ok (.outputCombiner outputMapping types)

/-- The heaps reached by calls that did not raise. -/
inductive Built [TensorType τ] : Heap τ ρ → Prop
  | empty : Built []
  | connect {heap : Heap τ ρ} {r : ρ} {inputConnections : OrderedDict String (OutputSelector ρ ℕ)}
      {node : CompoundNode τ ρ ℕ} : Built heap →
      (∀ e ∈ inputConnections.entries, OlderThan heap.length e.2.module) →
      connect retargeters heap r inputConnections = .ok node → Built (heap ++ [node])
  | combine {heap : Heap τ ρ} {outputMapping : OrderedDict String (OutputSelector ρ ℕ)}
      {node : CompoundNode τ ρ ℕ} : Built heap →
      (∀ e ∈ outputMapping.entries, OlderThan heap.length e.2.module) →
      outputCombiner retargeters heap outputMapping = .ok node → Built (heap ++ [node])

/-! ### The static checks of an accepted node -/

/-- What an accepted node guarantees about the types of what it selects. -/
def NodeTyped [TensorType τ] (types : NodeId ρ ℕ → RetargeterIoType τ) :
    CompoundNode τ ρ ℕ → Prop
  | .subgraph r inputConnections outTypes =>
    outTypes = (retargeters r).outputs ∧
    (∀ name t, (name, t) ∈ (retargeters r).inputs.entries → t.isOptional = false →
      name ∈ inputConnections.keys) ∧
    ∀ e ∈ inputConnections.entries, ∃ expected actual,
      (retargeters r).inputs.get? e.1 = some expected ∧
      (types e.2.module).get? e.2.outputName = some actual ∧
      expected.checkCompatibility actual = .ok ()
  | .outputCombiner outputMapping outTypes =>
    (∀ e ∈ outputMapping.entries, ∃ t, (types e.2.module).get? e.2.outputName = some t) ∧
    ∀ name t, outTypes.get? name = some t → ∃ selector, (name, selector) ∈ outputMapping.entries ∧
      (types selector.module).get? selector.outputName = some t

section Checks

variable {retargeters} [TensorType τ] {heap : Heap τ ρ}

theorem checkConnection_ok {self : Retargeter τ V σ} {inputName : String}
    {selector : OutputSelector ρ ℕ}
    (h : checkConnection retargeters heap self inputName selector = .ok ()) :
    ∃ expected actual, self.inputs.get? inputName = some expected ∧
      (outputTypes retargeters heap selector.module).get? selector.outputName = some actual ∧
      expected.checkCompatibility actual = .ok () := by
  rw [checkConnection] at h
  cases hexp : self.inputs.get? inputName with
  | none =>
    rw [hexp] at h
    cases h
  | some expected =>
    rw [hexp] at h
    dsimp only at h
    cases hact : (outputTypes retargeters heap selector.module).get? selector.outputName with
    | none =>
      rw [hact] at h
      cases h
    | some actual =>
      rw [hact] at h
      dsimp only at h
      cases hcompat : expected.checkCompatibility actual with
      | error e =>
        rw [hcompat] at h
        cases h
      | ok _ => exact ⟨expected, actual, rfl, rfl, hcompat⟩

theorem checkConnections_ok {self : Retargeter τ V σ} {l : List (String × OutputSelector ρ ℕ)}
    (h : checkConnections retargeters heap self l = .ok ()) :
    ∀ e ∈ l, checkConnection retargeters heap self e.1 e.2 = .ok () := by
  induction l with
  | nil =>
    intro e he
    cases he
  | cons head rest ih =>
    obtain ⟨inputName, selector⟩ := head
    rw [checkConnections] at h
    cases hc : checkConnection retargeters heap self inputName selector with
    | error e =>
      rw [hc] at h
      cases h
    | ok u =>
      rw [hc] at h
      intro e he
      rcases List.mem_cons.mp he with rfl | hmem
      · exact hc
      · exact ih h e hmem

/-- **What `connect` accepted.** -/
theorem connect_typed {r : ρ} {inputConnections : OrderedDict String (OutputSelector ρ ℕ)}
    {node : CompoundNode τ ρ ℕ} (h : connect retargeters heap r inputConnections = .ok node) :
    node = .subgraph r inputConnections (retargeters r).outputs ∧
      NodeTyped retargeters (outputTypes retargeters heap) node := by
  rw [connect] at h
  dsimp only at h
  split at h
  case isTrue => cases h
  case isFalse hextra =>
    split at h
    case isTrue => cases h
    case isFalse hmissing =>
      cases hcheck : checkConnections retargeters heap (retargeters r) inputConnections.entries with
      | error e =>
        rw [hcheck] at h
        cases h
      | ok u =>
        rw [hcheck] at h
        cases h
        refine ⟨rfl, rfl, ?_, fun e he => checkConnection_ok (checkConnections_ok hcheck e he)⟩
        intro name t hmem hreq
        -- No required input is missing, as the list of those is empty.
        by_contra hnot
        have hnil := not_not.mp hmissing
        rw [List.map_eq_nil_iff, List.filter_eq_nil_iff] at hnil
        exact hnil (name, t) hmem (by simp [hnot, hreq])

omit [TensorType τ] in
theorem combineTypes_ok {l : List (String × OutputSelector ρ ℕ)}
    {types types' : RetargeterIoType τ} (h : combineTypes retargeters heap l types = .ok types') :
    (∀ e ∈ l, ∃ t, (outputTypes retargeters heap e.2.module).get? e.2.outputName = some t) ∧
    ∀ name t, types'.get? name = some t → types.get? name = some t ∨
      ∃ selector, (name, selector) ∈ l ∧
        (outputTypes retargeters heap selector.module).get? selector.outputName = some t := by
  induction l generalizing types with
  | nil =>
    cases h
    exact ⟨fun e he => (by cases he), fun name t ht => Or.inl ht⟩
  | cons head rest ih =>
    obtain ⟨customName, selector⟩ := head
    rw [combineTypes] at h
    cases hget : (outputTypes retargeters heap selector.module).get? selector.outputName with
    | none =>
      rw [hget] at h
      cases h
    | some t₀ =>
      -- The type is entered under the custom name, over one entered before.
      rw [hget] at h
      obtain ⟨hfound, htypes⟩ := ih h
      constructor
      · intro e he
        rcases List.mem_cons.mp he with rfl | hmem
        · exact ⟨t₀, hget⟩
        · exact hfound e hmem
      · intro name t ht
        rcases htypes name t ht with hold | ⟨selector', hmem, hsel⟩
        · rw [OrderedDict.get?_insert] at hold
          by_cases hname : name = customName
          · rw [if_pos hname] at hold
            refine Or.inr ⟨selector, hname ▸ List.mem_cons_self, ?_⟩
            rw [hget, hold]
          · rw [if_neg hname] at hold
            exact Or.inl hold
        · exact Or.inr ⟨selector', List.mem_cons_of_mem _ hmem, hsel⟩

/-- **What `OutputCombiner` accepted.** -/
theorem outputCombiner_typed {outputMapping : OrderedDict String (OutputSelector ρ ℕ)}
    {node : CompoundNode τ ρ ℕ} (h : outputCombiner retargeters heap outputMapping = .ok node) :
    (∃ types, node = .outputCombiner outputMapping types) ∧
      NodeTyped retargeters (outputTypes retargeters heap) node := by
  rw [outputCombiner] at h
  split at h
  case isTrue => cases h
  case isFalse =>
    cases hcomb : combineTypes retargeters heap outputMapping.entries ∅ with
    | error e =>
      rw [hcomb] at h
      cases h
    | ok types =>
      rw [hcomb] at h
      cases h
      obtain ⟨hfound, htypes⟩ := combineTypes_ok hcomb
      refine ⟨⟨types, rfl⟩, hfound, fun name t ht => ?_⟩
      rcases htypes name t ht with hold | hsel
      · cases hold
      · exact hsel

/-! ### Accepted heaps are typed acyclic graphs -/

omit [TensorType τ] in
theorem outputTypes_snoc {n : NodeId ρ ℕ} (h : OlderThan heap.length n)
    (node : CompoundNode τ ρ ℕ) :
    outputTypes retargeters (heap ++ [node]) n = outputTypes retargeters heap n := by
  cases n with
  | retargeter r => rfl
  | compound c =>
    show (match (heap ++ [node])[c]? with | some node => _ | none => _) = _
    rw [List.getElem?_append_left h]
    rfl

theorem NodeTyped.congr {types types' : NodeId ρ ℕ → RetargeterIoType τ}
    {node : CompoundNode τ ρ ℕ} (h : NodeTyped retargeters types node)
    (heq : ∀ e ∈ node.selectors, types' e.2.module = types e.2.module) :
    NodeTyped retargeters types' node := by
  cases node with
  | subgraph r inputConnections outTypes =>
    refine ⟨h.1, h.2.1, fun e he => ?_⟩
    rw [heq e he]
    exact h.2.2 e he
  | outputCombiner outputMapping outTypes =>
    refine ⟨fun e he => ?_, fun name t ht => ?_⟩
    · rw [heq e he]
      exact h.1 e he
    · obtain ⟨selector, hmem, hsel⟩ := h.2 name t ht
      refine ⟨selector, hmem, ?_⟩
      rw [heq (name, selector) hmem]
      exact hsel

variable (retargeters heap) in
/-- Every node selects from older objects and passed its static checks. -/
def WellTyped : Prop :=
  ∀ c node, heap[c]? = some node → (∀ e ∈ node.selectors, OlderThan c e.2.module) ∧
    NodeTyped retargeters (outputTypes retargeters heap) node

theorem OlderThan.mono {c c' : ℕ} (hle : c ≤ c') {n : NodeId ρ ℕ} (h : OlderThan c n) :
    OlderThan c' n := by
  cases n with
  | retargeter r => trivial
  | compound k => exact Nat.lt_of_lt_of_le h hle

/-- Creating one more accepted node. -/
theorem WellTyped.snoc (h : WellTyped retargeters heap) {node : CompoundNode τ ρ ℕ}
    (hold : ∀ e ∈ node.selectors, OlderThan heap.length e.2.module)
    (htyped : NodeTyped retargeters (outputTypes retargeters heap) node) :
    WellTyped retargeters (heap ++ [node]) := by
  intro c node' hget
  by_cases hc : c < heap.length
  · rw [List.getElem?_append_left hc] at hget
    obtain ⟨holder, htyped'⟩ := h c node' hget
    refine ⟨holder, htyped'.congr fun e he => ?_⟩
    exact outputTypes_snoc ((holder e he).mono (Nat.le_of_lt hc)) node
  · obtain rfl : c = heap.length := by
      have hlt := (List.getElem?_eq_some_iff.mp hget).1
      rw [List.length_append, List.length_singleton] at hlt
      omega
    obtain rfl : node = node' := by simpa using hget
    exact ⟨hold, htyped.congr fun e he => outputTypes_snoc (hold e he) node⟩

/-- **What accepted calls build is well typed.** -/
theorem Built.wellTyped (h : Built retargeters heap) : WellTyped retargeters heap := by
  induction h with
  | empty =>
    intro c node hget
    simp at hget
  | connect _ hold hok ih =>
    obtain ⟨rfl, htyped⟩ := connect_typed hok
    exact ih.snoc hold htyped
  | combine _ hold hok ih =>
    obtain ⟨⟨types, rfl⟩, htyped⟩ := outputCombiner_typed hok
    exact ih.snoc hold htyped

variable (retargeters heap) in
/-- **What accepted calls build is an acyclic graph**: references go to older nodes. -/
def Built.graph (h : Built retargeters heap) : RetargetGraph τ V σ ρ ℕ where
  retargeter := retargeters
  compound c := (heap[c]?).getD (.outputCombiner ∅ ∅)
  rank c := c
  rank_lt := by
    intro c e he c' hc'
    cases hget : heap[c]? with
    | none =>
      rw [hget] at he
      cases he
    | some node =>
      rw [hget] at he
      have hold := (h.wellTyped c node hget).1 e he
      rw [hc'] at hold
      exact hold

theorem Built.nodeTyped (h : Built retargeters heap) (c : ℕ) :
    NodeTyped retargeters (h.graph retargeters heap).outputTypes
      ((h.graph retargeters heap).compound c) := by
  have htypes : (h.graph retargeters heap).outputTypes = outputTypes retargeters heap := by
    funext n
    cases n with
    | retargeter r => rfl
    | compound k =>
      show compoundOutputTypes ((heap[k]?).getD (.outputCombiner ∅ ∅))
        = (match heap[k]? with | some node => _ | none => _)
      cases heap[k]? with
      | none => rfl
      | some node => rfl
  rw [htypes]
  show NodeTyped retargeters _ ((heap[c]?).getD (.outputCombiner ∅ ∅))
  cases hget : heap[c]? with
  | none => exact ⟨fun e he => (by cases he), fun name t ht => (by cases ht)⟩
  | some node => exact (h.wellTyped c node hget).2

end Checks

/-! ### Groups of the declared types -/

/-- Compatibility is an equivalence on the tensor types of one class. -/
structure CompatibilityEquivalence (τ : Type) [TensorType τ] : Prop where
  refl : ∀ t : τ, TensorType.checkInstanceCompatibility t t = true
  symm : ∀ t t' : τ, TensorType.cls t = TensorType.cls t' →
    TensorType.checkInstanceCompatibility t t' = true →
    TensorType.checkInstanceCompatibility t' t = true
  trans : ∀ t t' t'' : τ, TensorType.cls t = TensorType.cls t' →
    TensorType.cls t' = TensorType.cls t'' →
    TensorType.checkInstanceCompatibility t t' = true →
    TensorType.checkInstanceCompatibility t' t'' = true →
    TensorType.checkInstanceCompatibility t t'' = true

variable [TensorType τ]

/-- A group as an output of type `t` leaves it: of a compatible type, and a plain
`TensorGroup` when `t` is required. -/
def GroupConforms (t : TensorGroupType τ) (group : TensorGroup τ V) : Prop :=
  t.Matches group.groupType ∧ (t.isOptional = false → group.required = true)

/-- Every declared output slot holds a group of its type. -/
def Conforms (types : RetargeterIoType τ) (outs : RetargeterIo τ V) : Prop :=
  ∀ name t, types.get? name = some t → ∃ group, outs.get? name = some group ∧ GroupConforms t group

/-- `_compute_fn` leaves in each output slot a group of its declared type. -/
def HonoursOutputs (self : Retargeter τ V σ) : Prop :=
  ∀ state inputs context outs state',
    self.computeFn state inputs self.allocateOutputs context = (.ok outs, state') →
    Conforms self.outputs outs

theorem isCompatibleWith_iff (t t' : τ) : TensorType.isCompatibleWith t t' = true ↔
    TensorType.cls t = TensorType.cls t' ∧ TensorType.checkInstanceCompatibility t t' = true := by
  rw [TensorType.isCompatibleWith]
  by_cases hcls : TensorType.cls t = TensorType.cls t'
  · simp [hcls]
  · simp [hcls]

theorem CompatibilityEquivalence.matches_trans (heq : CompatibilityEquivalence τ)
    {t t' t'' : TensorGroupType τ} (h : t.Matches t') (h' : t'.Matches t'') : t.Matches t'' := by
  have htrans : ∀ a b c : τ, TensorType.isCompatibleWith a b = true →
      TensorType.isCompatibleWith b c = true → TensorType.isCompatibleWith a c = true := by
    intro a b c hab hbc
    rw [isCompatibleWith_iff] at hab hbc ⊢
    exact ⟨hab.1.trans hbc.1, heq.trans a b c hab.1 hbc.1 hab.2 hbc.2⟩
  unfold TensorGroupType.Matches at h h' ⊢
  generalize t'.types = l' at h h'
  generalize t.types = l at h ⊢
  generalize t''.types = l'' at h' ⊢
  induction h generalizing l'' with
  | nil => exact h'
  | cons hhead _ ih =>
    cases h' with
    | cons hhead' htail' => exact List.Forall₂.cons (htrans _ _ _ hhead hhead') (ih _ htail')

/-- A conforming group of a type that the static check let through fits the input. -/
theorem GroupConforms.fits (heq : CompatibilityEquivalence τ) {expected actual : TensorGroupType τ}
    {group : TensorGroup τ V} (hgroup : GroupConforms actual group)
    (hcheck : expected.checkCompatibility actual = .ok ()) :
    expected.Matches group.groupType ∧ (expected.isOptional = false → group.isNone = false) := by
  obtain ⟨hopt, hmatch⟩ := (expected.checkCompatibility_ok_iff actual).mp hcheck
  refine ⟨heq.matches_trans hmatch hgroup.1, fun hreq => ?_⟩
  have hactual : actual.isOptional = false := by
    by_contra hne
    rw [hopt (by simpa using hne)] at hreq
    cases hreq
  rw [TensorGroup.isNone, hgroup.2 hactual]
  rfl

variable {g : RetargetGraph τ V σ ρ ℕ}

/-- What was found for the selectors resolved so far is of the selected types. -/
structure FoundConforms (g : RetargetGraph τ V σ ρ ℕ) (done : List (String × OutputSelector ρ ℕ))
    (found : RetargeterIo τ V) : Prop where
  keys : ∀ k ∈ found.keys, ∃ e ∈ done, e.1 = k
  groups : ∀ e ∈ done, ∃ group, found.get? e.1 = some group ∧
    ∀ t, (g.outputTypes e.2.module).get? e.2.outputName = some t → GroupConforms t group

omit [TensorType τ] in
theorem selectors_nodup (node : CompoundNode τ ρ ℕ) : (node.selectors.map Prod.fst).Nodup := by
  cases node with
  | subgraph r inputConnections outTypes => exact inputConnections.nodup
  | outputCombiner outputMapping outTypes => exact outputMapping.nodup

theorem FoundConforms.insert {done rest : List (String × OutputSelector ρ ℕ)}
    {found : RetargeterIo τ V} (h : FoundConforms g done found) {e : String × OutputSelector ρ ℕ}
    (hnodup : ((done ++ e :: rest).map Prod.fst).Nodup) {outs : RetargeterIo τ V}
    (houts : Conforms (g.outputTypes e.2.module) outs) {group : TensorGroup τ V}
    (hget : outs.get? e.2.outputName = some group) :
    FoundConforms g (done ++ [e]) (found.insert e.1 group) := by
  constructor
  · intro k hk
    rcases OrderedDict.mem_keys_insert.mp hk with rfl | hold
    · exact ⟨e, by simp, rfl⟩
    · obtain ⟨e', he', hk'⟩ := h.keys k hold
      exact ⟨e', List.mem_append_left _ he', hk'⟩
  · intro e' he'
    rcases List.mem_append.mp he' with hold | hnew
    · -- an earlier key: the keys of one dictionary are distinct
      have hne : e'.1 ≠ e.1 := by
        rw [List.map_append, List.nodup_append] at hnodup
        exact hnodup.2.2 e'.1 (List.mem_map.mpr ⟨e', hold, rfl⟩) e.1 (by simp)
      obtain ⟨group', hget', hconf⟩ := h.groups e' hold
      refine ⟨group', ?_, hconf⟩
      rw [OrderedDict.get?_insert, if_neg hne]
      exact hget'
    · obtain rfl : e' = e := List.mem_singleton.mp hnew
      refine ⟨group, by rw [OrderedDict.get?_insert, if_pos rfl], fun t ht => ?_⟩
      obtain ⟨group', hget', hconf⟩ := houts _ t ht
      rw [hget, Option.some_inj] at hget'
      exact hget' ▸ hconf

/-- The inputs a subgraph resolved fit its target. -/
theorem FoundConforms.fits (heq : CompatibilityEquivalence τ) {r : ρ}
    {inputConnections : OrderedDict String (OutputSelector ρ ℕ)} {outTypes : RetargeterIoType τ}
    (htyped : NodeTyped g.retargeter g.outputTypes (.subgraph r inputConnections outTypes))
    {found : RetargeterIo τ V} (h : FoundConforms g inputConnections.entries found) :
    (g.retargeter r).Fits found := by
  obtain ⟨-, hconnected, hchecks⟩ := htyped
  -- a connected input of type `t` got a group that fits `t`
  have hgroup : ∀ name t, (name, t) ∈ (g.retargeter r).inputs.entries →
      name ∈ inputConnections.keys → ∃ group, found.get? name = some group ∧
        t.Matches group.groupType ∧ (t.isOptional = false → group.isNone = false) := by
    intro name t ht hconn
    obtain ⟨e, he, rfl⟩ := List.mem_map.mp hconn
    obtain ⟨expected, actual, hexp, hact, hcheck⟩ := hchecks e he
    obtain rfl : t = expected := by
      rw [OrderedDict.get?_of_mem ht, Option.some_inj] at hexp
      exact hexp
    obtain ⟨group, hget, hconf⟩ := h.groups e he
    exact ⟨group, hget, (hconf actual hact).fits heq hcheck⟩
  constructor
  · intro k hk
    obtain ⟨e, he, rfl⟩ := h.keys k hk
    obtain ⟨expected, -, hexp, -, -⟩ := hchecks e he
    exact OrderedDict.mem_keys.mpr ⟨expected, hexp⟩
  · intro name t ht hreq
    obtain ⟨group, hget, hmatch, hpresent⟩ := hgroup name t ht (hconnected name t ht hreq)
    exact ⟨group, hget, hpresent hreq, hmatch⟩
  · intro name t ht _ group hget
    obtain ⟨e, he, rfl⟩ := h.keys name (OrderedDict.mem_keys.mpr ⟨group, hget⟩)
    obtain ⟨group', hget', hmatch, -⟩ := hgroup e.1 t ht (List.mem_map.mpr ⟨e, he, rfl⟩)
    rw [hget, Option.some_inj] at hget'
    exact Or.inr (hget' ▸ hmatch)

/-- What a combiner gathered is of its declared types. -/
theorem FoundConforms.conforms {outputMapping : OrderedDict String (OutputSelector ρ ℕ)}
    {outTypes : RetargeterIoType τ}
    (htyped : NodeTyped g.retargeter g.outputTypes (.outputCombiner outputMapping outTypes))
    {found : RetargeterIo τ V} (h : FoundConforms g outputMapping.entries found) :
    Conforms outTypes found := by
  intro name t ht
  obtain ⟨selector, hmem, hsel⟩ := htyped.2 name t ht
  obtain ⟨group, hget, hconf⟩ := h.groups (name, selector) hmem
  exact ⟨group, hget, hconf t hsel⟩

/-! ### Running an accepted graph -/

section Running

variable [DecidableEq ρ] {inputs : OrderedDict String (RetargeterIo τ V)}
  {context : ComputeContext}

/-- Every required input that reached a `_compute_fn` was a present group of a type
compatible with the declared one. -/
def SawRequired (g : RetargetGraph τ V σ ρ ℕ) (s : ExecState τ V σ ρ ℕ) : Prop :=
  ∀ r filled, (r, filled) ∈ s.seen → ∀ name t, (name, t) ∈ (g.retargeter r).inputs.entries →
    t.isOptional = false → ∃ group, filled.get? name = some group ∧ group.isNone = false ∧
      t.innerType.checkCompatibility group.groupType = .ok ()

/-- Between two calls: what is cached is of the declared types. -/
def CacheConforms (g : RetargetGraph τ V σ ρ ℕ) (s : ExecState τ V σ ρ ℕ) : Prop :=
  ∀ n outs, s.cachedOutputs n = some outs → Conforms (g.outputTypes n) outs

/-- Raised by a `_compute_fn`, not by a gate. -/
def FromComputeFn (e : GraphError τ) : Prop := ∃ message, e = .computeFn message

theorem CacheConforms.stored {s s' : ExecState τ V σ ρ ℕ} (h : CacheConforms g s)
    (hcached : s'.cachedOutputs = s.cachedOutputs) {n : NodeId ρ ℕ} {outs : RetargeterIo τ V}
    (houts : Conforms (g.outputTypes n) outs) : CacheConforms g (s'.stored n outs) := by
  intro m outs' hm
  by_cases hmn : m = n
  · subst hmn
    rw [ExecState.stored_self, Option.some_inj] at hm
    exact hm ▸ houts
  · rw [ExecState.stored_of_ne s' hmn, hcached] at hm
    exact h m outs' hm

/-- Inputs that fit the target's spec: only its `_compute_fn` can raise, it saw the
required inputs, and it leaves outputs of the declared types. -/
theorem runCompute_conforms (hhonours : ∀ r, HonoursOutputs (g.retargeter r)) {r : ρ}
    {found : RetargeterIo τ V} {s : ExecState τ V σ ρ ℕ} (hfits : (g.retargeter r).Fits found)
    (hsaw : SawRequired g s) :
    Fallible.wp (g.runCompute context r found)
      (fun outs s' => s'.cachedOutputs = s.cachedOutputs ∧ SawRequired g s' ∧
        Conforms (g.retargeter r).outputs outs)
      (fun e s' => SawRequired g s' ∧ FromComputeFn e) s := by
  obtain ⟨filled, hchecked, hrequired⟩ := Retargeter.checkedInputs_of_fit hfits
  -- The retargeter sees its inputs as they were filled.
  have hsaw' : SawRequired g (g.afterCompute context r found s) := by
    intro r' filled' hmem
    have hmem' : (r', filled') ∈ s.seen ++ [(r, filled)] := by
      have := hmem
      rw [afterCompute, hchecked] at this
      exact this
    rcases List.mem_append.mp hmem' with hold | hnew
    · exact hsaw r' filled' hold
    · obtain ⟨rfl, rfl⟩ : r' = r ∧ filled' = filled := by simpa using hnew
      intro name t ht hreq
      obtain ⟨group, hget, hnone, hmatch⟩ := hrequired name t ht hreq
      exact ⟨group, hget, hnone, (t.checkCompatibility_inner_ok_iff _ group.unwrapped).mpr hmatch⟩
  -- The check passes, so the result is that of `compute_fn`.
  have hcompute : (g.retargeter r).compute (s.states r) found context
      = (g.retargeter r).executeCompute (s.states r) filled (g.retargeter r).allocateOutputs
          context := by
    rw [Retargeter.compute, hchecked]
  refine wp_runCompute ?_ ?_
  · intro outs hok
    refine ⟨rfl, hsaw', ?_⟩
    rw [hcompute, Retargeter.executeCompute] at hok
    rcases hfn : (g.retargeter r).computeFn _ filled (g.retargeter r).allocateOutputs context
      with ⟨_ | outs', state'⟩
    · rw [hfn] at hok
      cases hok
    · rw [hfn] at hok
      cases hok
      exact hhonours r _ _ _ _ _ hfn
  · intro e herr
    refine ⟨hsaw', ?_⟩
    rw [hcompute, Retargeter.executeCompute] at herr
    rcases hfn : (g.retargeter r).computeFn _ filled (g.retargeter r).allocateOutputs context
      with ⟨message | _, state'⟩
    · rw [hfn] at herr
      cases herr
      exact ⟨message, rfl⟩
    · rw [hfn] at herr
      cases herr

/-- The groups supplied under a leaf's name. -/
def suppliedInputs (g : RetargetGraph τ V σ ρ ℕ) (inputs : OrderedDict String (RetargeterIo τ V))
    (r : ρ) :
    RetargeterIo τ V :=
  (inputs.get? (g.retargeter r).name).getD ∅

omit [DecidableEq ρ] in
/-- A leaf reads inputs that fit its spec. -/
theorem leafInputs_fit {r : ρ} (h : (g.retargeter r).inputs.entries ≠ [] →
    (g.retargeter r).Fits (suppliedInputs g inputs r)) :
    ∃ found, g.leafInputs inputs r = .ok found ∧ (g.retargeter r).Fits found := by
  rw [leafInputs]
  by_cases hempty : (g.retargeter r).inputs.entries = []
  · rw [hempty]
    refine ⟨∅, rfl, fun k hk => (by cases hk), fun name t ht => ?_, fun name t ht => ?_⟩
    · rw [hempty] at ht
      cases ht
    · rw [hempty] at ht
      cases ht
  · have hfits := h hempty
    rw [if_pos (List.length_pos_iff.mpr hempty)]
    cases hget : inputs.get? (g.retargeter r).name with
    | some leafInput =>
      rw [suppliedInputs, hget] at hfits
      exact ⟨leafInput, rfl, hfits⟩
    | none =>
      rw [suppliedInputs, hget] at hfits
      -- a required input would have to be found in the empty dictionary
      have hoptional : ¬ ((g.retargeter r).inputs.entries.any fun e => !e.2.isOptional) = true := by
        intro hany
        obtain ⟨e, he, hreq⟩ := List.any_eq_true.mp hany
        obtain ⟨group, hg, -⟩ := hfits.required e.1 e.2 he (by simpa using hreq)
        cases hg
      dsimp only
      rw [if_neg hoptional]
      exact ⟨∅, rfl, hfits⟩

/-- **One call**: only a `_compute_fn` can raise, and the outputs are of the declared
types. -/
theorem computeWithCache_conforms (heq : CompatibilityEquivalence τ)
    (htyped : ∀ c, NodeTyped g.retargeter g.outputTypes (g.compound c))
    (hhonours : ∀ r, HonoursOutputs (g.retargeter r)) (n : NodeId ρ ℕ)
    (hleaves : ∀ r, g.Reaches n (.retargeter r) → (g.retargeter r).inputs.entries ≠ [] →
      (g.retargeter r).Fits (suppliedInputs g inputs r))
    (s : ExecState τ V σ ρ ℕ) (hcache : CacheConforms g s) (hsaw : SawRequired g s) :
    Fallible.wp (g.computeWithCache inputs context n)
      (fun outs s' => CacheConforms g s' ∧ SawRequired g s' ∧ Conforms (g.outputTypes n) outs)
      (fun e s' => SawRequired g s' ∧ FromComputeFn e) s := by
  induction hk : g.nodeRank n using Nat.strongRecOn generalizing n s with
  | _ k ih =>
  refine wp_computeWithCache ?_ ?_
  · intro outs hcached
    exact ⟨hcache, hsaw, hcache n outs hcached⟩
  · intro _
    cases n with
    | retargeter r =>
      obtain ⟨found, hfound, hfits⟩ := leafInputs_fit (hleaves r Relation.ReflTransGen.refl)
      rw [computeMiss, hfound]
      refine Fallible.wp_bind (Fallible.wp_pure (Fallible.wp_bind (Fallible.wp_modify ?_)))
      refine Fallible.wp_mono (runCompute_conforms hhonours hfits hsaw) ?_ (fun _ _ h => h)
      intro outs s' h
      exact ⟨hcache.stored h.1 h.2.2, h.2.1, h.2.2⟩
    | compound c =>
      rw [computeMiss]
      refine Fallible.wp_bind (Fallible.wp_mono
        (wp_gather (I := fun done found s' => CacheConforms g s' ∧ SawRequired g s' ∧
            FoundConforms g done found)
          (R := fun e s' => SawRequired g s' ∧ FromComputeFn e)
          (g.compound c).selectors _ ?_ ?_) ?_ (fun _ _ h => h))
      · intro done e rest hl he found s₁ hinv
        obtain ⟨hcache₁, hsaw₁, hfound⟩ := hinv
        have hnodup := selectors_nodup (g.compound c)
        rw [hl] at hnodup
        have hcall := ih _ (hk ▸ g.nodeRank_selector_lt he) e.2.module
          (fun r hr => hleaves r (reaches_of_source (mem_sources he) hr)) s₁ hcache₁ hsaw₁ rfl
        refine Fallible.wp_mono hcall ?_ (fun _ _ h => h)
        intro outs s₂ h₂
        obtain ⟨hcache₂, hsaw₂, houts⟩ := h₂
        -- the static check found the selected output, so it is there
        obtain ⟨t, ht⟩ : ∃ t, (g.outputTypes e.2.module).get? e.2.outputName = some t := by
          have hc := htyped c
          cases hnode : g.compound c with
          | subgraph r inputConnections outTypes =>
            rw [hnode] at hc he
            obtain ⟨-, actual, -, hact, -⟩ := hc.2.2 e he
            exact ⟨actual, hact⟩
          | outputCombiner outputMapping outTypes =>
            rw [hnode] at hc he
            exact hc.1 e he
        obtain ⟨group, hget, -⟩ := houts _ t ht
        rw [hget]
        exact ⟨hcache₂, hsaw₂, hfound.insert hnodup houts hget⟩
      · exact ⟨hcache, hsaw, fun k hk => (by cases hk), fun e he => (by cases he)⟩
      · intro found s₁ hinv
        obtain ⟨hcache₁, hsaw₁, hfound⟩ := hinv
        have hc := htyped c
        refine Fallible.wp_bind (Fallible.wp_modify ?_)
        rw [runCompound]
        cases hnode : g.compound c with
        | subgraph r inputConnections outTypes =>
          rw [hnode] at hc hfound
          have htypes : g.outputTypes (.compound c) = (g.retargeter r).outputs := by
            rw [RetargetGraph.outputTypes, hnode]
            exact hc.1
          refine Fallible.wp_mono (runCompute_conforms hhonours (hfound.fits heq hc) hsaw₁) ?_
            (fun _ _ h => h)
          intro outs s₂ h₂
          rw [htypes]
          exact ⟨hcache₁.stored h₂.1 (htypes ▸ h₂.2.2), h₂.2.1, h₂.2.2⟩
        | outputCombiner outputMapping outTypes =>
          rw [hnode] at hc hfound
          have hconf : Conforms (g.outputTypes (.compound c)) found := by
            rw [RetargetGraph.outputTypes, hnode]
            exact hfound.conforms hc
          exact Fallible.wp_pure ⟨hcache₁.stored rfl hconf, hsaw₁, hconf⟩

theorem executeRoots_conforms (heq : CompatibilityEquivalence τ)
    (htyped : ∀ c, NodeTyped g.retargeter g.outputTypes (g.compound c))
    (hhonours : ∀ r, HonoursOutputs (g.retargeter r)) (roots : List (NodeId ρ ℕ))
    (hleaves : ∀ r, g.Reachable roots (.retargeter r) → (g.retargeter r).inputs.entries ≠ [] →
      (g.retargeter r).Fits (suppliedInputs g inputs r))
    (s : ExecState τ V σ ρ ℕ) (hcache : CacheConforms g s) (hsaw : SawRequired g s) :
    Fallible.wp (g.executeRoots inputs context roots) (fun _ s' => SawRequired g s')
      (fun e s' => SawRequired g s' ∧ FromComputeFn e) s := by
  induction roots generalizing s with
  | nil => exact Fallible.wp_pure hsaw
  | cons root rest ih =>
    rw [executeRoots]
    have hroot : ∀ r, g.Reaches root (.retargeter r) → (g.retargeter r).inputs.entries ≠ [] →
        (g.retargeter r).Fits (suppliedInputs g inputs r) :=
      fun r hr => hleaves r ⟨root, List.mem_cons_self, hr⟩
    refine Fallible.wp_bind (Fallible.wp_mono
      (computeWithCache_conforms heq htyped hhonours root hroot s hcache hsaw) ?_ (fun _ _ h => h))
    intro outs s₁ h₁
    -- The other roots reach no leaf that was not reached before.
    have hleaves' : ∀ r, g.Reachable rest (.retargeter r) → (g.retargeter r).inputs.entries ≠ [] →
        (g.retargeter r).Fits (suppliedInputs g inputs r) := by
      rintro r ⟨root', hmem, hr⟩
      exact hleaves r ⟨root', List.mem_cons_of_mem _ hmem, hr⟩
    have hrest := ih hleaves' s₁ h₁.1 h₁.2.1
    refine Fallible.wp_bind (Fallible.wp_mono hrest ?_ (fun _ _ h => h))
    intro others s₂ h₂
    exact Fallible.wp_pure h₂

/-- A run raised nothing but `_compute_fn`'s own errors, and every required input that
reached a `_compute_fn` was present and of a compatible type. -/
def PassedValidation {α : Type} (g : RetargetGraph τ V σ ρ ℕ)
    (run : Except (GraphError τ) α × ExecState τ V σ ρ ℕ) : Prop :=
  (∀ e, run.1 = .error e → ∃ message, e = .computeFn message) ∧ SawRequired g run.2

omit [DecidableEq ρ] in
theorem passedValidation_of_wp {α : Type} {x : Exec τ V σ ρ ℕ α} {s : ExecState τ V σ ρ ℕ}
    (h : Fallible.wp x (fun _ s' => SawRequired g s')
      (fun e s' => SawRequired g s' ∧ FromComputeFn e) s) : PassedValidation g (x s) := by
  refine ⟨fun e he => (Fallible.wp_error h (Prod.ext he rfl)).2, ?_⟩
  exact Fallible.wp_state (Fallible.wp_mono h (fun _ _ h => h) (fun _ _ h => h.1))

/-- **A graph accepted at construction passes input validation**: as a pipeline and
through one cache for any roots, on leaf inputs that fit the leaves' own specs. -/
theorem built_graph_passes_validation (retargeters : ρ → Retargeter τ V σ) (heap : Heap τ ρ)
    (h : Built retargeters heap) (heq : CompatibilityEquivalence τ)
    (hhonours : ∀ r, HonoursOutputs (retargeters r))
    (inputs : OrderedDict String (RetargeterIo τ V)) (context : ComputeContext)
    (states : ρ → σ) :
    let g := h.graph retargeters heap
    (∀ roots : List (NodeId ρ ℕ), (∀ r, g.Reachable roots (.retargeter r) →
        (retargeters r).inputs.entries ≠ [] →
        (retargeters r).Fits (suppliedInputs g inputs r)) →
      PassedValidation g (g.executeRoots inputs context roots (freshCache states))) ∧
    (∀ c, (∀ r, g.Reaches (.compound c) (.retargeter r) → (retargeters r).inputs.entries ≠ [] →
        (retargeters r).Fits (suppliedInputs g inputs r)) →
      PassedValidation g
        (g.executePipeline inputs context (.compound c) (freshCache states))) ∧
    ∀ r, (retargeters r).Fits (suppliedInputs g inputs r) →
      PassedValidation g
        (g.executePipeline inputs context (.retargeter r) (freshCache states)) := by
  intro g
  -- A fresh cache has nothing that could violate a type.
  have hcache : CacheConforms g (freshCache states) := fun n outs hn => by cases hn
  have hsaw : SawRequired g (freshCache states) := fun r filled hmem => by cases hmem
  refine ⟨fun roots hleaves => ?_, fun c hleaves => ?_, fun r hfits => ?_⟩
  · exact passedValidation_of_wp
      (executeRoots_conforms heq h.nodeTyped hhonours roots hleaves _ hcache hsaw)
  · refine passedValidation_of_wp (Fallible.wp_mono
      (computeWithCache_conforms heq h.nodeTyped hhonours (.compound c) hleaves _ hcache hsaw) ?_
      (fun _ _ h => h))
    intro outs s' h'
    exact h'.2.1
  · refine passedValidation_of_wp (Fallible.wp_mono
      (runCompute_conforms (g := g) hhonours hfits hsaw) ?_ (fun _ _ h => h))
    intro outs s' h'
    exact h'.2.1

end Running

/-! ### The shared counter, built -/

/-- The retargeters of `diamond`. -/
def diamondRetargeters (r : Bool) : Retargeter Unit ℕ ℕ := if r then forward else counter

def diamondHeap : Heap Unit Bool :=
  [.subgraph true (single "x" ⟨.retargeter false, "x"⟩) (single "y" valueType),
    .outputCombiner
      ((single "direct" ⟨.retargeter false, "x"⟩).insert "forwarded" ⟨.compound 0, "y"⟩)
      ((single "direct" valueType).insert "forwarded" valueType)]

theorem diamondHeap_built : Built diamondRetargeters diamondHeap := by
  have hconnect : connect diamondRetargeters [] true (single "x" ⟨.retargeter false, "x"⟩)
      = .ok (.subgraph true (single "x" ⟨.retargeter false, "x"⟩) (single "y" valueType)) := rfl
  have hcombine : outputCombiner diamondRetargeters
      [.subgraph true (single "x" ⟨.retargeter false, "x"⟩) (single "y" valueType)]
      ((single "direct" ⟨.retargeter false, "x"⟩).insert "forwarded" ⟨.compound 0, "y"⟩)
      = .ok (.outputCombiner
        ((single "direct" ⟨.retargeter false, "x"⟩).insert "forwarded" ⟨.compound 0, "y"⟩)
        ((single "direct" valueType).insert "forwarded" valueType)) := rfl
  refine Built.combine (Built.connect Built.empty ?_ hconnect) ?_ hcombine
  · intro e he
    obtain rfl := List.mem_singleton.mp he
    trivial
  · intro e he
    rcases List.mem_pair.mp he with rfl | rfl
    · trivial
    · exact Nat.one_pos

theorem matches_value (v : ℕ) : valueType.Matches (value v).groupType :=
  List.Forall₂.cons rfl List.Forall₂.nil

/-- A slot that holds a value conforms to a spec that asks for one there. -/
theorem conforms_value {name : String} {outs : RetargeterIo Unit ℕ} {v : ℕ}
    (h : outs.get? name = some (value v)) : Conforms (single name valueType) outs := by
  intro name' t ht
  rw [single, OrderedDict.get?_insert] at ht
  by_cases hname : name' = name
  · subst hname
    rw [if_pos rfl, Option.some_inj] at ht
    subst ht
    exact ⟨value v, h, matches_value v, fun _ => rfl⟩
  · rw [if_neg hname] at ht
    cases ht

theorem diamondRetargeters_honour (r : Bool) : HonoursOutputs (diamondRetargeters r) := by
  intro state inputs context outs state' hfn
  cases r with
  | false =>
    cases hfn
    exact conforms_value (v := state) rfl
  | true =>
    cases hfn
    have hy := fun v : ℕ => OrderedDict.get?_insert forward.allocateOutputs "y" "y" (value v)
    exact conforms_value ((hy _).trans (if_pos rfl))

/-- What a caller supplies for a leaf `forward`. -/
def forwardInputs : OrderedDict String (RetargeterIo Unit ℕ) :=
  single "forward" (single "x" (value 3))

theorem forwardInputs_fit : forward.Fits (single "x" (value 3)) where
  declared k hk := hk
  required name t ht _ := by
    cases List.mem_singleton.mp ht
    exact ⟨value 3, rfl, rfl, matches_value 3⟩
  optional name t ht hopt := by
    cases List.mem_singleton.mp ht
    cases hopt

/-- The built diamond and, beside it, `forward` alone as a pipeline. -/
theorem diamond_passes_validation :
    let g := diamondHeap_built.graph diamondRetargeters diamondHeap
    PassedValidation g (g.executeRoots forwardInputs default [.compound 1, .compound 0]
      (freshCache fun _ => 7)) ∧
    PassedValidation g (g.executePipeline forwardInputs default (.retargeter true)
      (freshCache fun _ => 7)) := by
  intro g
  obtain ⟨hroots, -, halone⟩ := built_graph_passes_validation diamondRetargeters diamondHeap
    diamondHeap_built ⟨fun _ => rfl, fun _ _ _ _ => rfl, fun _ _ _ _ _ _ _ => rfl⟩
    diamondRetargeters_honour forwardInputs default fun _ => 7
  refine ⟨hroots _ fun r _ hinputs => ?_, halone true forwardInputs_fit⟩
  cases r with
  | false => exact absurd rfl hinputs
  | true => exact forwardInputs_fit

end GraphConstruction
