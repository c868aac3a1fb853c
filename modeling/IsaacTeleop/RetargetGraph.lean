/-
Retargeting graphs and their execution through one per-step cache.

The objects of a graph are `BaseRetargeter` instances (`ρ`) and the compound
nodes built over them (`κ`): `RetargeterSubgraph`, made by `connect`, and
`OutputCombiner`.  Objects are compared by identity, as the cache does.  A
compound node holds selectors of outputs of other nodes, and `rank` orders the
compound nodes along these references, so the graph is acyclic.

* `RetargetGraph.computeWithCache` — `_compute_with_cache` of the three classes;
* `RetargetGraph.executeRoots` — several roots driven through one `ExecutionCache`;
* `RetargetGraph.eval` — the plain recursive evaluation, without a cache;
* `RetargetGraph.getLeafNodes` — the static walk to the leaves.
-/
import IsaacTeleop.StateExcept
import IsaacTeleop.TensorGroup

/-- The identity of a graph object. -/
inductive NodeId (ρ κ : Type) where
  | retargeter (r : ρ)
  | compound (c : κ)
deriving DecidableEq, Repr

structure OutputSelector (ρ κ : Type) where
  module : NodeId ρ κ
  outputName : String
deriving DecidableEq, Repr

/-- `RetargeterSubgraph` and `OutputCombiner`. -/
inductive CompoundNode (τ ρ κ : Type) where
  | subgraph (targetModule : ρ) (inputConnections : OrderedDict String (OutputSelector ρ κ))
      (outputTypes : RetargeterIoType τ)
  | outputCombiner (outputMapping : OrderedDict String (OutputSelector ρ κ))
      (outputTypes : RetargeterIoType τ)

/-- The selectors a compound node resolves, in its dictionary's order. -/
def CompoundNode.selectors {τ ρ κ : Type} :
    CompoundNode τ ρ κ → List (String × OutputSelector ρ κ)
  | .subgraph _ inputConnections _ => inputConnections.entries
  | .outputCombiner outputMapping _ => outputMapping.entries

/-- The graph objects; references between compound nodes descend in `rank`. -/
structure RetargetGraph (τ V σ ρ κ : Type) where
  retargeter : ρ → Retargeter τ V σ
  compound : κ → CompoundNode τ ρ κ
  rank : κ → ℕ
  rank_lt : ∀ c, ∀ e ∈ (compound c).selectors, ∀ c', e.2.module = .compound c' → rank c' < rank c

/-- The `ExecutionCache` of a step and the private state of every retargeter.  The
last three fields record the run: the `_compute_with_cache` calls, the nodes whose
own computation was called, and what reached each `_compute_fn`. -/
structure ExecState (τ V σ ρ κ : Type) where
  cachedOutputs : NodeId ρ κ → Option (RetargeterIo τ V)
  states : ρ → σ
  calls : List (NodeId ρ κ)
  computed : List (NodeId ρ κ)
  seen : List (ρ × RetargeterIo τ V)

namespace ExecState

variable {τ V σ ρ κ : Type} (s : ExecState τ V σ ρ κ)

/-- `_compute_with_cache` was called on `n`. -/
def called (n : NodeId ρ κ) : ExecState τ V σ ρ κ := { s with calls := s.calls ++ [n] }

/-- The own computation of `n` was called. -/
def started (n : NodeId ρ κ) : ExecState τ V σ ρ κ := { s with computed := s.computed ++ [n] }

/-- `cache.cache(id, outputs)` -/
def stored [DecidableEq ρ] [DecidableEq κ] (n : NodeId ρ κ) (outputs : RetargeterIo τ V) :
    ExecState τ V σ ρ κ :=
  { s with cachedOutputs := Function.update s.cachedOutputs n (some outputs) }

theorem stored_self [DecidableEq ρ] [DecidableEq κ] (n : NodeId ρ κ) (outputs : RetargeterIo τ V) :
    (s.stored n outputs).cachedOutputs n = some outputs := by
  show Function.update s.cachedOutputs n (some outputs) n = some outputs
  exact Function.update_self _ _ _

theorem stored_of_ne [DecidableEq ρ] [DecidableEq κ] {n m : NodeId ρ κ} (h : m ≠ n)
    (outputs : RetargeterIo τ V) : (s.stored n outputs).cachedOutputs m = s.cachedOutputs m := by
  show Function.update s.cachedOutputs n (some outputs) m = s.cachedOutputs m
  exact Function.update_of_ne h _ _

/-- A retargeter ran: its next state, and the inputs its function saw, if any. -/
def ran [DecidableEq ρ] (r : ρ) (state : σ) (saw : Option (RetargeterIo τ V)) :
    ExecState τ V σ ρ κ :=
  { s with states := Function.update s.states r state,
           seen := s.seen ++ (saw.map fun filled => (r, filled)).toList }

end ExecState

namespace RetargetGraph

variable {τ V σ ρ κ : Type}

def nodeRank (g : RetargetGraph τ V σ ρ κ) : NodeId ρ κ → ℕ
  | .retargeter _ => 0
  | .compound c => g.rank c + 1

theorem nodeRank_selector_lt (g : RetargetGraph τ V σ ρ κ) {c : κ} {e : String × OutputSelector ρ κ}
    (h : e ∈ (g.compound c).selectors) : g.nodeRank e.2.module < g.nodeRank (.compound c) := by
  cases hm : e.2.module with
  | retargeter r => exact Nat.succ_pos _
  | compound c' => exact Nat.succ_lt_succ (g.rank_lt c e h c' hm)

/-- `for name, selector in ...: found[name] = run(selector.module)[selector.output_name]` -/
def gather {S : Type} : (l : List (String × OutputSelector ρ κ)) →
    ((e : String × OutputSelector ρ κ) → e ∈ l → Fallible S (GraphError τ) (RetargeterIo τ V)) →
    RetargeterIo τ V → Fallible S (GraphError τ) (RetargeterIo τ V)
  | [], _, found => pure found
  | e :: rest, run, found => do
    let sourceOutputs ← run e List.mem_cons_self
    match sourceOutputs.get? e.2.outputName with
    | none => Fallible.raise (.keyError e.2.outputName)
    | some group =>
      gather rest (fun e' h => run e' (List.mem_cons_of_mem _ h)) (found.insert e.1 group)

section Execution

variable [TensorType τ] [DecidableEq ρ] [DecidableEq κ]

abbrev Exec (τ V σ ρ κ : Type) : Type → Type := Fallible (ExecState τ V σ ρ κ) (GraphError τ)

/-- The inputs a leaf reads from the cache. -/
def leafInputs (g : RetargetGraph τ V σ ρ κ) (inputs : OrderedDict String (RetargeterIo τ V))
    (r : ρ) :
    Except (GraphError τ) (RetargeterIo τ V) :=
  let self := g.retargeter r
  if self.inputs.entries.length > 0 then
    match inputs.get? self.name with
    | some leafInput => .ok leafInput
    | none =>
      if self.inputs.entries.any fun e => !e.2.isOptional then .error (.inputNotFound self.name)
      else .ok ∅
  else .ok ∅

/-- `compute` of retargeter `r` on freshly allocated outputs. -/
def runCompute (g : RetargetGraph τ V σ ρ κ) (context : ComputeContext) (r : ρ)
    (inputs : RetargeterIo τ V) : Exec τ V σ ρ κ (RetargeterIo τ V) := fun s =>
  let (result, state) := (g.retargeter r).compute (s.states r) inputs context
  (result, s.ran r state ((g.retargeter r).checkedInputs inputs).toOption)

/-- The own computation of a compound node once its selectors are resolved: a
subgraph runs its target, a combiner returns what it gathered. -/
def runCompound (g : RetargetGraph τ V σ ρ κ) (context : ComputeContext) (c : κ)
    (found : RetargeterIo τ V) : Exec τ V σ ρ κ (RetargeterIo τ V) :=
  match g.compound c with
  | .subgraph targetModule _ _ => g.runCompute context targetModule found
  | .outputCombiner _ _ => pure found

/-- `_compute_with_cache` on the given leaf inputs and shared context. -/
def computeWithCache (g : RetargetGraph τ V σ ρ κ) (inputs : OrderedDict String (RetargeterIo τ V))
    (context : ComputeContext) (n : NodeId ρ κ) : Exec τ V σ ρ κ (RetargeterIo τ V) := do
  Fallible.modify (·.called n)
  let s ← Fallible.read
  match s.cachedOutputs n with
  | some outputs => return outputs
  | none =>
    let outputs ← match n with
      | .retargeter r => do
        let found ← Fallible.lift (g.leafInputs inputs r)
        Fallible.modify (·.started (.retargeter r))
        g.runCompute context r found
      | .compound c => do
        let found ← gather (g.compound c).selectors
          (fun e _ => g.computeWithCache inputs context e.2.module) ∅
        Fallible.modify (·.started (.compound c))
        g.runCompound context c found
    Fallible.modify (·.stored n outputs)
    return outputs
termination_by g.nodeRank n
decreasing_by exact g.nodeRank_selector_lt ‹_›

/-- Several roots through one cache, in order; the first error ends the run. -/
def executeRoots (g : RetargetGraph τ V σ ρ κ) (inputs : OrderedDict String (RetargeterIo τ V))
    (context : ComputeContext) :
    List (NodeId ρ κ) → Exec τ V σ ρ κ (List (RetargeterIo τ V))
  | [] => pure []
  | root :: rest => do
    let outputs ← g.computeWithCache inputs context root
    let others ← g.executeRoots inputs context rest
    return outputs :: others

/-- A fresh cache at the start of a step. -/
def freshCache (states : ρ → σ) : ExecState τ V σ ρ κ where
  cachedOutputs _ := none
  states := states
  calls := []
  computed := []
  seen := []

/-- `execute_pipeline`: a lone retargeter computes from `inputs.get(name, {})`, a
compound node goes through a fresh cache. -/
def executePipeline (g : RetargetGraph τ V σ ρ κ) (inputs : OrderedDict String (RetargeterIo τ V))
    (context : ComputeContext) : NodeId ρ κ → Exec τ V σ ρ κ (RetargeterIo τ V)
  | .retargeter r => g.runCompute context r ((inputs.get? (g.retargeter r).name).getD ∅)
  | .compound c => g.computeWithCache inputs context (.compound c)

/-- The evaluation without a cache, every retargeter in the given state. -/
def eval (g : RetargetGraph τ V σ ρ κ) (inputs : OrderedDict String (RetargeterIo τ V))
    (context : ComputeContext) (states : ρ → σ) (n : NodeId ρ κ) :
    Except (GraphError τ) (RetargeterIo τ V) :=
  match n with
  | .retargeter r =>
    match g.leafInputs inputs r with
    | .error e => .error e
    | .ok found => ((g.retargeter r).compute (states r) found context).1
  | .compound c =>
    let sources := gather (g.compound c).selectors
      (fun e _ (_ : Unit) => (g.eval inputs context states e.2.module, ())) ∅
    match (sources ()).1 with
    | .error e => .error e
    | .ok found =>
      match g.compound c with
      | .subgraph targetModule _ _ =>
        ((g.retargeter targetModule).compute (states targetModule) found context).1
      | .outputCombiner _ _ => .ok found
termination_by g.nodeRank n
decreasing_by exact g.nodeRank_selector_lt ‹_›

/-! ### Proof rules for the execution -/

omit [TensorType τ] [DecidableEq ρ] [DecidableEq κ] in
/-- The invariant rule for the gathering loop: `I` speaks about the selectors
resolved so far and what was found for them. -/
theorem wp_gather {S : Type}
    {I : List (String × OutputSelector ρ κ) → RetargeterIo τ V → S → Prop}
    {R : GraphError τ → S → Prop} (l : List (String × OutputSelector ρ κ))
    (run : (e : String × OutputSelector ρ κ) → e ∈ l → Fallible S (GraphError τ) (RetargeterIo τ V))
    (hstep : ∀ done e rest (_ : l = done ++ e :: rest) (he : e ∈ l) found s, I done found s →
      Fallible.wp (run e he) (fun outs s' => match outs.get? e.2.outputName with
        | none => R (.keyError e.2.outputName) s'
        | some group => I (done ++ [e]) (found.insert e.1 group) s') R s)
    {found : RetargeterIo τ V} {s : S} (h : I [] found s) :
    Fallible.wp (gather l run found) (I l) R s := by
  -- the loop over a suffix `l'`, entered with the prefix `done` resolved
  suffices hsuffix : ∀ (l' done : List (String × OutputSelector ρ κ)) (hl : l = done ++ l')
      (found : RetargeterIo τ V) (s : S), I done found s →
      Fallible.wp (gather l' (fun e he => run e (hl ▸ List.mem_append_right _ he)) found)
        (I l) R s from hsuffix l [] rfl found s h
  intro l'
  induction l' with
  | nil =>
    intro done hl found s hinv
    obtain rfl : l = done := by simpa using hl
    exact Fallible.wp_pure hinv
  | cons e rest ih =>
    intro done hl found s hinv
    refine Fallible.wp_bind ?_
    refine Fallible.wp_mono (hstep done e rest hl _ found s hinv) ?_ (fun _ _ hR => hR)
    intro outs s' hnext
    dsimp only
    cases hget : outs.get? e.2.outputName with
    | none =>
      rw [hget] at hnext
      exact Fallible.wp_raise hnext
    | some group =>
      rw [hget] at hnext
      exact ih (done ++ [e]) (by simp [hl]) (found.insert e.1 group) s' hnext

variable {g : RetargetGraph τ V σ ρ κ} {inputs : OrderedDict String (RetargeterIo τ V)}
  {context : ComputeContext} {s : ExecState τ V σ ρ κ}
  {Q : RetargeterIo τ V → ExecState τ V σ ρ κ → Prop}
  {R : GraphError τ → ExecState τ V σ ρ κ → Prop}

/-- The state after `compute` of `r`, whether it returned or raised. -/
def afterCompute (g : RetargetGraph τ V σ ρ κ) (context : ComputeContext) (r : ρ)
    (inputs : RetargeterIo τ V) (s : ExecState τ V σ ρ κ) : ExecState τ V σ ρ κ :=
  s.ran r ((g.retargeter r).compute (s.states r) inputs context).2
    ((g.retargeter r).checkedInputs inputs).toOption

omit [DecidableEq κ] in
theorem wp_runCompute {r : ρ} {found : RetargeterIo τ V}
    (hok : ∀ outs, ((g.retargeter r).compute (s.states r) found context).1 = .ok outs →
      Q outs (g.afterCompute context r found s))
    (herr : ∀ e, ((g.retargeter r).compute (s.states r) found context).1 = .error e →
      R e (g.afterCompute context r found s)) :
    Fallible.wp (g.runCompute context r found) Q R s := by
  have hrun : g.runCompute context r found s
      = (((g.retargeter r).compute (s.states r) found context).1,
          g.afterCompute context r found s) := rfl
  rw [Fallible.wp, hrun]
  cases hres : ((g.retargeter r).compute (s.states r) found context).1 with
  | error e => exact herr e hres
  | ok outs => exact hok outs hres

/-- The miss branch of `_compute_with_cache`, up to the store. -/
def computeMiss (g : RetargetGraph τ V σ ρ κ) (inputs : OrderedDict String (RetargeterIo τ V))
    (context : ComputeContext) : NodeId ρ κ → Exec τ V σ ρ κ (RetargeterIo τ V)
  | .retargeter r => do
    let found ← Fallible.lift (g.leafInputs inputs r)
    Fallible.modify (·.started (.retargeter r))
    g.runCompute context r found
  | .compound c => do
    let found ← gather (g.compound c).selectors
      (fun e _ => g.computeWithCache inputs context e.2.module) ∅
    Fallible.modify (·.started (.compound c))
    g.runCompound context c found

theorem computeWithCache_eq (n : NodeId ρ κ) :
    g.computeWithCache inputs context n s = match s.cachedOutputs n with
      | some outputs => (.ok outputs, s.called n)
      | none => (do
          let outputs ← g.computeMiss inputs context n
          Fallible.modify (·.stored n outputs)
          return outputs : Exec τ V σ ρ κ (RetargeterIo τ V)) (s.called n) := by
  rw [computeWithCache]
  show (match s.cachedOutputs n with
    | some outputs => _
    | none => _ : Exec τ V σ ρ κ (RetargeterIo τ V)) (s.called n) = _
  cases s.cachedOutputs n with
  | some outputs => rfl
  | none =>
    cases n with
    | retargeter r =>
      rw [computeMiss, Fallible.bind_assoc]
      simp only [Fallible.bind_assoc]
    | compound c =>
      rw [computeMiss, Fallible.bind_assoc]
      simp only [Fallible.bind_assoc]

/-- A call is a hit, or a miss whose result is stored. -/
theorem wp_computeWithCache {n : NodeId ρ κ}
    (hhit : ∀ outs, s.cachedOutputs n = some outs → Q outs (s.called n))
    (hmiss : s.cachedOutputs n = none →
      Fallible.wp (g.computeMiss inputs context n) (fun outs s' => Q outs (s'.stored n outs)) R
        (s.called n)) :
    Fallible.wp (g.computeWithCache inputs context n) Q R s := by
  rw [Fallible.wp, computeWithCache_eq]
  cases hc : s.cachedOutputs n with
  | some outs => exact hhit outs hc
  | none =>
    refine Fallible.wp_bind (Fallible.wp_mono (hmiss hc) ?_ (fun _ _ hR => hR))
    intro outs s' hQ
    exact Fallible.wp_bind (Fallible.wp_modify (Fallible.wp_pure hQ))

end Execution

/-! ### Leaves -/

/-- Append the leaves not listed before, keeping the order of first occurrence. -/
def addLeaves [DecidableEq ρ] (leaves subLeaves : List ρ) : List ρ :=
  subLeaves.foldl (fun acc leaf => if leaf ∈ acc then acc else acc ++ [leaf]) leaves

/-- `get_leaf_nodes` -/
def getLeafNodes [DecidableEq ρ] (g : RetargetGraph τ V σ ρ κ) (n : NodeId ρ κ) : List ρ :=
  match n with
  | .retargeter r => [r]
  | .compound c =>
    (g.compound c).selectors.attach.foldl
      (fun leaves e => addLeaves leaves (g.getLeafNodes e.1.2.module)) []
termination_by g.nodeRank n
decreasing_by exact g.nodeRank_selector_lt e.2

end RetargetGraph
