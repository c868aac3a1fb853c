/-
Leaf discovery and the leaf inputs a session hands to its graphs.

`get_leaf_nodes` walks the graph statically, an execution walks it through the
cache.  Both meet the same leaves, and the leaves are the only nodes that read the
leaf inputs.  A session therefore collects inputs for all of its graphs at once and
filters them by leaf name for each of them.

* `mem_getLeafNodes`, `getLeafNodes_nodup` — the static walk;
* `computeWithCache_calls` — the dynamic walk;
* `executePipeline_congr` — only the leaves' names are read;
* `leaf_discovery_exact` — both walks, and the session's filters.
-/
import IsaacTeleop.CachedExecution

namespace RetargetGraph

variable {τ V σ ρ κ : Type}

/-! ### The static walk -/

section StaticWalk

variable [DecidableEq ρ]

theorem addLeaves_nodup {leaves : List ρ} (h : leaves.Nodup) (subLeaves : List ρ) :
    (addLeaves leaves subLeaves).Nodup := by
  induction subLeaves generalizing leaves with
  | nil => exact h
  | cons leaf rest ih =>
    show (addLeaves (if leaf ∈ leaves then leaves else leaves ++ [leaf]) rest).Nodup
    by_cases hmem : leaf ∈ leaves
    · rw [if_pos hmem]
      exact ih h
    · rw [if_neg hmem]
      refine ih ?_
      rw [List.nodup_append]
      refine ⟨h, List.nodup_singleton leaf, fun a ha b hb => ?_⟩
      obtain rfl : b = leaf := List.mem_singleton.mp hb
      rintro rfl
      exact hmem ha

theorem mem_addLeaves {leaves subLeaves : List ρ} {r : ρ} :
    r ∈ addLeaves leaves subLeaves ↔ r ∈ leaves ∨ r ∈ subLeaves := by
  induction subLeaves generalizing leaves with
  | nil => exact ⟨Or.inl, fun h => h.resolve_right (List.not_mem_nil)⟩
  | cons leaf rest ih =>
    show r ∈ addLeaves (if leaf ∈ leaves then leaves else leaves ++ [leaf]) rest ↔ _
    rw [ih, List.mem_cons]
    by_cases hmem : leaf ∈ leaves
    · rw [if_pos hmem]
      constructor
      · rintro (h | h)
        · exact Or.inl h
        · exact Or.inr (Or.inr h)
      · rintro (h | rfl | h)
        · exact Or.inl h
        · exact Or.inl hmem
        · exact Or.inr h
    · rw [if_neg hmem, List.mem_append, List.mem_singleton, or_assoc]

/-- The loop of `get_leaf_nodes` over any list of nodes. -/
theorem foldl_addLeaves {α : Type} (f : α → List ρ) (l : List α) (leaves : List ρ)
    (h : leaves.Nodup) :
    (l.foldl (fun acc e => addLeaves acc (f e)) leaves).Nodup ∧
      ∀ r, r ∈ l.foldl (fun acc e => addLeaves acc (f e)) leaves ↔
        r ∈ leaves ∨ ∃ e ∈ l, r ∈ f e := by
  induction l generalizing leaves with
  | nil => exact ⟨h, fun r => by simp⟩
  | cons e rest ih =>
    obtain ⟨hnodup, hmem⟩ := ih (addLeaves leaves (f e)) (addLeaves_nodup h (f e))
    refine ⟨hnodup, fun r => ?_⟩
    rw [List.foldl_cons, hmem, mem_addLeaves, or_assoc]
    simp

theorem getLeafNodes_nodup (g : RetargetGraph τ V σ ρ κ) (n : NodeId ρ κ) :
    (g.getLeafNodes n).Nodup := by
  rw [getLeafNodes.eq_def]
  cases n with
  | retargeter r => exact List.nodup_singleton r
  | compound c => exact (foldl_addLeaves _ _ [] List.nodup_nil).1

/-- **`get_leaf_nodes` lists the retargeters reached as nodes.** -/
theorem mem_getLeafNodes (g : RetargetGraph τ V σ ρ κ) (n : NodeId ρ κ) (r : ρ) :
    r ∈ g.getLeafNodes n ↔ g.Reaches n (.retargeter r) := by
  -- On the rank: the sources of a compound stand below it.
  induction hk : g.nodeRank n using Nat.strongRecOn generalizing n with
  | _ k ih =>
  rw [getLeafNodes.eq_def]
  cases n with
  | retargeter r' =>
    constructor
    · intro h
      obtain rfl : r = r' := List.mem_singleton.mp h
      exact Relation.ReflTransGen.refl
    · intro h
      rcases h.cases_head with heq | ⟨m, hm, -⟩
      · cases heq
        exact List.mem_singleton_self r
      · cases hm
  | compound c =>
    show r ∈ List.foldl _ [] _ ↔ _
    rw [(foldl_addLeaves (fun e : {e // e ∈ (g.compound c).selectors} =>
      g.getLeafNodes e.1.2.module) _ [] List.nodup_nil).2]
    constructor
    · rintro (h | ⟨e, -, hr⟩)
      · cases h
      · rw [ih _ (hk ▸ g.nodeRank_selector_lt e.2) e.1.2.module rfl] at hr
        exact reaches_of_source (mem_sources e.2) hr
    · intro h
      rcases h.cases_head with heq | ⟨m, hm, hto⟩
      · cases heq
      · obtain ⟨e, he, rfl⟩ := List.mem_map.mp hm
        refine Or.inr ⟨⟨e, he⟩, List.mem_attach _ _, ?_⟩
        rw [ih _ (hk ▸ g.nodeRank_selector_lt he) e.2.module rfl]
        exact hto

end StaticWalk

/-! ### The dynamic walk -/

/-- All calls so far were on nodes satisfying `P`, and every computed node was
called. -/
def CallsWithin (P : NodeId ρ κ → Prop) (s : ExecState τ V σ ρ κ) : Prop :=
  (∀ n ∈ s.calls, P n) ∧ ∀ n ∈ s.computed, n ∈ s.calls

theorem CallsWithin.called {P : NodeId ρ κ → Prop} {s : ExecState τ V σ ρ κ}
    (h : CallsWithin P s) {n : NodeId ρ κ} (hn : P n) : CallsWithin P (s.called n) := by
  constructor
  · intro m hm
    rcases List.mem_append.mp hm with hold | hnew
    · exact h.1 m hold
    · exact (List.mem_singleton.mp hnew) ▸ hn
  · intro m hm
    exact List.mem_append_left _ (h.2 m hm)

theorem CallsWithin.started {P : NodeId ρ κ → Prop} {s : ExecState τ V σ ρ κ}
    (h : CallsWithin P s) {n : NodeId ρ κ} (hn : n ∈ s.calls) : CallsWithin P (s.started n) := by
  refine ⟨h.1, fun m hm => ?_⟩
  rcases List.mem_append.mp hm with hold | hnew
  · exact h.2 m hold
  · exact (List.mem_singleton.mp hnew) ▸ hn

theorem CallsWithin.sameLog {P : NodeId ρ κ → Prop} {s s' : ExecState τ V σ ρ κ}
    (h : CallsWithin P s) (hlog : SameLog s s') : CallsWithin P s' := by
  rw [CallsWithin, hlog.1, hlog.2.2]
  exact h

variable [DecidableEq ρ] [TensorType τ] [DecidableEq κ] {g : RetargetGraph τ V σ ρ κ}
  {inputs : OrderedDict String (RetargeterIo τ V)} {context : ComputeContext}

variable (inputs context) in
/-- **One call** only calls nodes reached from it and computes only called nodes. -/
theorem computeWithCache_calls {P : NodeId ρ κ → Prop}
    (hclosed : ∀ n, P n → ∀ m ∈ g.sources n, P m) (n : NodeId ρ κ) (hn : P n)
    (s : ExecState τ V σ ρ κ) (hs : CallsWithin P s) :
    Fallible.wp (g.computeWithCache inputs context n)
      (fun _ s' => CallsWithin P s' ∧ ∀ m ∈ s.calls, m ∈ s'.calls)
      (fun _ s' => CallsWithin P s') s := by
  induction hk : g.nodeRank n using Nat.strongRecOn generalizing n s with
  | _ k ih =>
  have hself : n ∈ (s.called n).calls := List.mem_append_right _ (List.mem_singleton_self n)
  have hkeep : ∀ m ∈ s.calls, m ∈ (s.called n).calls := fun m hm => List.mem_append_left _ hm
  refine wp_computeWithCache ?_ ?_
  · intro outs _
    exact ⟨hs.called hn, hkeep⟩
  · intro _
    cases n with
    | retargeter r =>
      rw [computeMiss]
      refine Fallible.wp_bind ?_
      cases g.leafInputs inputs r with
      | error e => exact Fallible.wp_raise (hs.called hn)
      | ok found =>
        have hstart := (hs.called hn).started hself
        refine Fallible.wp_pure (Fallible.wp_bind (Fallible.wp_modify ?_))
        refine Fallible.wp_mono (runCompute_sameLog r found _) ?_ ?_
        · intro outs s' hlog
          obtain ⟨hP, hcomputed⟩ := hstart.sameLog hlog
          exact ⟨⟨hP, hcomputed⟩, fun m hm => hlog.2.2 ▸ hkeep m hm⟩
        · intro e s' hlog
          exact hstart.sameLog hlog
    | compound c =>
      rw [computeMiss]
      -- The loop over the sources keeps the calls within `P` and loses none of them.
      refine Fallible.wp_bind (Fallible.wp_mono
        (wp_gather (I := fun _ _ s' => CallsWithin P s' ∧
            ∀ m ∈ (s.called (.compound c)).calls, m ∈ s'.calls)
          (R := fun _ s' => CallsWithin P s') (g.compound c).selectors _ ?_ ?_) ?_
        (fun _ _ h => h))
      · intro done e rest _ he found s₁ hinv
        have hcall := ih _ (hk ▸ g.nodeRank_selector_lt he) e.2.module
          (hclosed _ hn _ (mem_sources he)) s₁ hinv.1 rfl
        refine Fallible.wp_mono hcall ?_ (fun _ _ h => h)
        intro outs s₂ h₂
        cases outs.get? e.2.outputName with
        | none => exact h₂.1
        | some group => exact ⟨h₂.1, fun m hm => h₂.2 m (hinv.2 m hm)⟩
      · exact ⟨hs.called hn, fun m hm => hm⟩
      · intro found s₁ hinv
        have hstart := hinv.1.started (hinv.2 _ hself)
        refine Fallible.wp_bind (Fallible.wp_modify ?_)
        refine Fallible.wp_mono (runCompound_sameLog c found _) ?_ ?_
        · intro outs s' hlog
          obtain ⟨hP, hcomputed⟩ := hstart.sameLog hlog
          exact ⟨⟨hP, hcomputed⟩, fun m hm => hlog.2.2 ▸ hinv.2 m (hkeep m hm)⟩
        · intro e s' hlog
          exact hstart.sameLog hlog

/-- **The two walks agree**: an execution of a compound node calls
`_compute_with_cache` on no other retargeter than its leaves, and on all of them when
it returns. -/
theorem executePipeline_calls (g : RetargetGraph τ V σ ρ κ)
    (inputs : OrderedDict String (RetargeterIo τ V))
    (context : ComputeContext) (states : ρ → σ) (c : κ) :
    let run := g.executePipeline inputs context (.compound c) (freshCache states)
    (∀ r, .retargeter r ∈ run.2.calls → r ∈ g.getLeafNodes (.compound c)) ∧
    ((∃ outs, run.1 = .ok outs) →
      ∀ r ∈ g.getLeafNodes (.compound c), .retargeter r ∈ run.2.calls) := by
  intro run
  have hfresh : CallsWithin (g.Reaches (.compound c)) (freshCache states : ExecState τ V σ ρ κ) :=
    ⟨fun n hn => (by cases hn), fun n hn => (by cases hn)⟩
  have hcalls := computeWithCache_calls inputs context (fun n hn m hm => hn.tail hm) (.compound c)
    Relation.ReflTransGen.refl (freshCache states) hfresh
  have hwithin : CallsWithin (g.Reaches (.compound c)) run.2 :=
    Fallible.wp_state (Fallible.wp_mono hcalls (fun _ _ h => h.1) (fun _ _ h => h))
  refine ⟨fun r hr => (g.mem_getLeafNodes _ r).mpr (hwithin.1 _ hr), ?_⟩
  rintro ⟨outs, houts⟩ r hr
  obtain ⟨hsettled, hcached, -⟩ := Fallible.wp_ok
    (computeWithCache_sound (.compound c) (freshCache states) (freshCache_settled (g := g) states))
    (Prod.ext houts rfl)
  refine hwithin.2 _ (hsettled.toSound.computed_of_reaches ?_ ((g.mem_getLeafNodes _ r).mp hr))
  exact (hsettled.cached_iff _).mpr ⟨outs, hcached⟩

/-! ### Only the leaves read the leaf inputs -/

/-- Two input maps that give every leaf of `n` the same entry. -/
def AgreeOnLeaves (g : RetargetGraph τ V σ ρ κ) (n : NodeId ρ κ)
    (inputs inputs' : OrderedDict String (RetargeterIo τ V)) : Prop :=
  ∀ r ∈ g.getLeafNodes n,
    inputs.get? (g.retargeter r).name = inputs'.get? (g.retargeter r).name

omit [TensorType τ] [DecidableEq κ] in
theorem AgreeOnLeaves.source {inputs inputs' : OrderedDict String (RetargeterIo τ V)}
    {n m : NodeId ρ κ} (h : AgreeOnLeaves g n inputs inputs') (hm : m ∈ g.sources n) :
    AgreeOnLeaves g m inputs inputs' := by
  intro r hr
  refine h r ((g.mem_getLeafNodes n r).mpr ?_)
  exact reaches_of_source hm ((g.mem_getLeafNodes m r).mp hr)

theorem computeWithCache_congr {inputs inputs' : OrderedDict String (RetargeterIo τ V)}
    (n : NodeId ρ κ) (h : AgreeOnLeaves g n inputs inputs') :
    g.computeWithCache inputs context n = g.computeWithCache inputs' context n := by
  induction hk : g.nodeRank n using Nat.strongRecOn generalizing n with
  | _ k ih =>
  have hmiss : g.computeMiss inputs context n = g.computeMiss inputs' context n := by
    cases n with
    | retargeter r =>
      have hname := h r ((g.mem_getLeafNodes _ r).mpr Relation.ReflTransGen.refl)
      rw [computeMiss, computeMiss, leafInputs, leafInputs, hname]
    | compound c =>
      rw [computeMiss, computeMiss]
      congr 2
      funext e he
      exact ih _ (hk ▸ g.nodeRank_selector_lt he) e.2.module (h.source (mem_sources he)) rfl
  funext s
  rw [computeWithCache_eq, computeWithCache_eq, hmiss]

/-- **An execution depends on the leaf inputs only through its leaves' names.** -/
theorem executePipeline_congr {inputs inputs' : OrderedDict String (RetargeterIo τ V)}
    (n : NodeId ρ κ) (h : AgreeOnLeaves g n inputs inputs') :
    g.executePipeline inputs context n = g.executePipeline inputs' context n := by
  cases n with
  | retargeter r =>
    have hname := h r ((g.mem_getLeafNodes _ r).mpr Relation.ReflTransGen.refl)
    rw [executePipeline, executePipeline, hname]
  | compound c => exact computeWithCache_congr (.compound c) h

theorem executeRoots_congr {inputs inputs' : OrderedDict String (RetargeterIo τ V)}
    (roots : List (NodeId ρ κ)) (h : ∀ root ∈ roots, AgreeOnLeaves g root inputs inputs') :
    g.executeRoots inputs context roots = g.executeRoots inputs' context roots := by
  induction roots with
  | nil => rfl
  | cons root rest ih =>
    rw [executeRoots, executeRoots, computeWithCache_congr root (h root List.mem_cons_self),
      ih fun root' hmem => h root' (List.mem_cons_of_mem _ hmem)]

end RetargetGraph

/-! ### The session's filters -/

/-- The graphs of a `TeleopSession` configuration. -/
structure SessionGraphs (τ V σ ρ κ : Type) where
  graph : RetargetGraph τ V σ ρ κ
  pipeline : NodeId ρ κ
  teleopControlPipeline : Option (NodeId ρ κ)
  sinks : List (NodeId ρ κ)
  /-- `isinstance(node, IDeviceIOSource)` -/
  isDeviceIOSource : ρ → Bool
  /-- `isinstance(node, IDeviceIOSink)` -/
  isDeviceIOSink : ρ → Bool

/-- Why `_discover_sources` raises. -/
inductive DiscoveryError (ρ : Type) where
  /-- a `sinks` entry is no sink and wraps none -/
  | notASink
  /-- two different leaves share a name -/
  | duplicateLeafName (name : String) (existing node : ρ)
  /-- an external-input leaf feeds the control pipeline only -/
  | externalControlLeaf (name : String)
deriving DecidableEq, Repr

/-- What `_discover_sources` stores. -/
structure Discovery (ρ κ : Type) where
  /-- each entry with the sink node it wraps -/
  sinks : List (NodeId ρ κ × ρ)
  mainLeafNames : List String
  controlLeafNames : List String
  sinkLeafNames : List String
  sources : List ρ
  externalLeaves : List ρ
deriving DecidableEq

namespace SessionGraphs

variable {τ V σ ρ κ : Type} [DecidableEq ρ]

/-- `_resolve_sink` -/
def resolveSink (self : SessionGraphs τ V σ ρ κ) (entry : NodeId ρ κ) :
    Except (DiscoveryError ρ) (NodeId ρ κ × ρ) :=
  let target := match entry with
    | .retargeter r => some r
    | .compound c => match self.graph.compound c with
      | .subgraph targetModule _ _ => some targetModule
      | .outputCombiner _ _ => none
  match target with
  | some sinkNode =>
    if self.isDeviceIOSink sinkNode then .ok (entry, sinkNode) else .error .notASink
  | none => .error .notASink

/-- The leaves feeding one sink, without the sink node itself. -/
def sinkLeaves (self : SessionGraphs τ V σ ρ κ) (sink : NodeId ρ κ × ρ) : List ρ :=
  (self.graph.getLeafNodes sink.1).filter fun leaf => leaf ≠ sink.2

/-- The leaf-name check; `seen` maps a name to the leaf that has it. -/
def checkNames (self : SessionGraphs τ V σ ρ κ) :
    List ρ → OrderedDict String ρ → Except (DiscoveryError ρ) Unit
  | [], _ => .ok ()
  | node :: rest, seen =>
    let name := (self.graph.retargeter node).name
    match seen.get? name with
    | some existing =>
      if existing ≠ node then .error (.duplicateLeafName name existing node)
      else checkNames self rest (seen.insert name node)
    | none => checkNames self rest (seen.insert name node)

/-- The loop that splits the leaves into polled sources and external leaves. -/
def partitionLeaves (self : SessionGraphs τ V σ ρ κ) (mainLeaves controlLeaves : List ρ) :
    List ρ → List ρ → List ρ → List ρ → Except (DiscoveryError ρ) (List ρ × List ρ)
  | [], _, sources, external => .ok (sources, external)
  | node :: rest, visited, sources, external =>
    if node ∈ visited then
      partitionLeaves self mainLeaves controlLeaves rest visited sources external
    else if self.isDeviceIOSource node then
      partitionLeaves self mainLeaves controlLeaves rest (visited ++ [node]) (sources ++ [node])
        external
    else if (self.graph.retargeter node).inputs.entries ≠ [] then
      if node ∈ controlLeaves ∧ node ∉ mainLeaves then
        .error (.externalControlLeaf (self.graph.retargeter node).name)
      else partitionLeaves self mainLeaves controlLeaves rest (visited ++ [node]) sources
        (external ++ [node])
    else partitionLeaves self mainLeaves controlLeaves rest (visited ++ [node]) sources external

/-- `_discover_sources` -/
def discoverSources (self : SessionGraphs τ V σ ρ κ) :
    Except (DiscoveryError ρ) (Discovery ρ κ) := do
  let name := fun r => (self.graph.retargeter r).name
  let mainLeaves := self.graph.getLeafNodes self.pipeline
  let controlLeaves := match self.teleopControlPipeline with
    | some control => self.graph.getLeafNodes control
    | none => []
  let sinks ← self.sinks.mapM self.resolveSink
  let sinkLeaves := sinks.flatMap self.sinkLeaves
  let leafNodes := mainLeaves ++ controlLeaves ++ sinkLeaves
  self.checkNames leafNodes ∅
  let (sources, externalLeaves) ← self.partitionLeaves mainLeaves controlLeaves leafNodes [] [] []
  return { sinks := sinks
           mainLeafNames := mainLeaves.map name
           controlLeafNames := controlLeaves.map name
           sinkLeafNames := sinkLeaves.map name
           sources := sources
           externalLeaves := externalLeaves }

variable [DecidableEq κ] [TensorType τ]

/-- The control pipeline of a step, on the given inputs. -/
def executeControl (self : SessionGraphs τ V σ ρ κ)
    (inputs : OrderedDict String (RetargeterIo τ V)) (context : ComputeContext) (states : ρ → σ) :
    Option (Except (GraphError τ) (RetargeterIo τ V) × ExecState τ V σ ρ κ) :=
  self.teleopControlPipeline.map fun control =>
    self.graph.executePipeline inputs context control (RetargetGraph.freshCache states)

/-- The main pipeline of a step and, through the same cache, every sink subgraph. -/
def executeMain (self : SessionGraphs τ V σ ρ κ) (d : Discovery ρ κ)
    (inputs : OrderedDict String (RetargeterIo τ V)) (context : ComputeContext) (states : ρ → σ) :
    Except (GraphError τ) (RetargeterIo τ V) × ExecState τ V σ ρ κ :=
  if d.sinks = [] then
    self.graph.executePipeline inputs context self.pipeline (RetargetGraph.freshCache states)
  else
    (do
      let mainOutputs ← self.graph.computeWithCache inputs context self.pipeline
      let _ ← self.graph.executeRoots inputs context (d.sinks.map Prod.fst)
      return mainOutputs : RetargetGraph.Exec τ V σ ρ κ (RetargeterIo τ V))
    (RetargetGraph.freshCache states)

/-- `control_inputs` of `_execute_step_request` -/
def controlInputs (d : Discovery ρ κ) (collected : OrderedDict String (RetargeterIo τ V)) :
    OrderedDict String (RetargeterIo τ V) :=
  collected.filterKeys fun k => k ∈ d.controlLeafNames

/-- `main_inputs` or, with sinks, `graph_inputs` of `_execute_step_request` -/
def graphInputs (d : Discovery ρ κ) (collected : OrderedDict String (RetargeterIo τ V)) :
    OrderedDict String (RetargeterIo τ V) :=
  if d.sinks = [] then collected.filterKeys fun k => k ∈ d.mainLeafNames
  else collected.filterKeys fun k => k ∈ d.mainLeafNames ∨ k ∈ d.sinkLeafNames

omit [DecidableEq κ] [TensorType τ] in
/-- The name sets a successful discovery stores. -/
theorem discoverSources_names {self : SessionGraphs τ V σ ρ κ} {d : Discovery ρ κ}
    (h : self.discoverSources = .ok d) :
    d.mainLeafNames = (self.graph.getLeafNodes self.pipeline).map
        (fun r => (self.graph.retargeter r).name) ∧
    (∀ control, self.teleopControlPipeline = some control → d.controlLeafNames =
      (self.graph.getLeafNodes control).map fun r => (self.graph.retargeter r).name) ∧
    d.sinkLeafNames =
      (d.sinks.flatMap self.sinkLeaves).map fun r => (self.graph.retargeter r).name := by
  unfold discoverSources at h
  simp only [bind, Except.bind] at h
  split at h
  case h_1 => cases h
  case h_2 sinks _ =>
    split at h
    case h_1 => cases h
    case h_2 =>
      split at h
      case h_1 => cases h
      case h_2 =>
        cases h
        refine ⟨rfl, fun control hcontrol => ?_, rfl⟩
        rw [hcontrol]

/-- No input collected for another graph bears the name of a sink node that is itself
a leaf of its entry; discovery leaves these nodes out as consumers. -/
def SinkNamesFree (self : SessionGraphs τ V σ ρ κ) (d : Discovery ρ κ)
    (collected : OrderedDict String (RetargeterIo τ V)) : Prop :=
  ∀ sink ∈ d.sinks, sink.2 ∈ self.graph.getLeafNodes sink.1 →
    (self.graph.retargeter sink.2).name ∈ collected.keys →
    (self.graph.retargeter sink.2).name ∈ d.mainLeafNames ∨
      (self.graph.retargeter sink.2).name ∈ d.sinkLeafNames

omit [DecidableEq κ] [TensorType τ] in
/-- Filtering by a set of names that holds the leaves' names changes no leaf's entry. -/
theorem agreeOnLeaves_filterKeys {g : RetargetGraph τ V σ ρ κ} {n : NodeId ρ κ} {p : String → Bool}
    {collected : OrderedDict String (RetargeterIo τ V)}
    (h : ∀ r ∈ g.getLeafNodes n, (g.retargeter r).name ∈ collected.keys →
      p (g.retargeter r).name = true) :
    RetargetGraph.AgreeOnLeaves g n (collected.filterKeys p) collected := by
  intro r hr
  rw [OrderedDict.get?_filterKeys]
  by_cases hp : p (g.retargeter r).name = true
  · rw [if_pos hp]
  · rw [if_neg hp]
    have hmissing : (g.retargeter r).name ∉ collected.keys := fun hmem => hp (h r hr hmem)
    exact (OrderedDict.get?_eq_none.mpr hmissing).symm

theorem executeControl_filter {self : SessionGraphs τ V σ ρ κ} {d : Discovery ρ κ}
    (hd : self.discoverSources = .ok d) (collected : OrderedDict String (RetargeterIo τ V))
    (context : ComputeContext) (states : ρ → σ) :
    self.executeControl (controlInputs d collected) context states
      = self.executeControl collected context states := by
  rw [executeControl, executeControl]
  cases hcontrol : self.teleopControlPipeline with
  | none => rfl
  | some control =>
    have hnames := (discoverSources_names hd).2.1 control hcontrol
    have hagree :
        RetargetGraph.AgreeOnLeaves self.graph control (controlInputs d collected) collected := by
      refine agreeOnLeaves_filterKeys fun r hr _ => ?_
      rw [decide_eq_true_eq, hnames]
      exact List.mem_map.mpr ⟨r, hr, rfl⟩
    rw [Option.map_some, Option.map_some, RetargetGraph.executePipeline_congr control hagree]

theorem executeMain_filter {self : SessionGraphs τ V σ ρ κ} {d : Discovery ρ κ}
    (hd : self.discoverSources = .ok d) (collected : OrderedDict String (RetargeterIo τ V))
    (hfree : self.SinkNamesFree d collected) (context : ComputeContext) (states : ρ → σ) :
    self.executeMain d (graphInputs d collected) context states
      = self.executeMain d collected context states := by
  obtain ⟨hmain, -, hsinks⟩ := discoverSources_names hd
  -- The leaves of the pipeline are kept by the filter.
  have hmem : ∀ r ∈ self.graph.getLeafNodes self.pipeline,
      (self.graph.retargeter r).name ∈ d.mainLeafNames := by
    intro r hr
    rw [hmain]
    exact List.mem_map.mpr ⟨r, hr, rfl⟩
  rw [executeMain, executeMain, graphInputs]
  by_cases hnone : d.sinks = []
  · rw [if_pos hnone, if_pos hnone, if_pos hnone]
    rw [RetargetGraph.executePipeline_congr self.pipeline (agreeOnLeaves_filterKeys fun r hr _ =>
      decide_eq_true (hmem r hr))]
  · rw [if_neg hnone, if_neg hnone, if_neg hnone]
    have hpipeline : RetargetGraph.AgreeOnLeaves self.graph self.pipeline
        (collected.filterKeys fun k => k ∈ d.mainLeafNames ∨ k ∈ d.sinkLeafNames) collected :=
      agreeOnLeaves_filterKeys fun r hr _ => decide_eq_true (Or.inl (hmem r hr))
    -- So are those of the sinks; a sink that is a leaf itself needs its name to be free.
    have hroots : ∀ root ∈ d.sinks.map Prod.fst, RetargetGraph.AgreeOnLeaves self.graph root
        (collected.filterKeys fun k => k ∈ d.mainLeafNames ∨ k ∈ d.sinkLeafNames) collected := by
      intro root hroot
      obtain ⟨sink, hsink, rfl⟩ := List.mem_map.mp hroot
      refine agreeOnLeaves_filterKeys fun r hr hcollected => decide_eq_true ?_
      by_cases hself : r = sink.2
      · subst hself
        exact hfree sink hsink hr hcollected
      · rw [hsinks]
        refine Or.inr (List.mem_map.mpr ⟨r, List.mem_flatMap.mpr ⟨sink, hsink, ?_⟩, rfl⟩)
        exact List.mem_filter.mpr ⟨hr, decide_eq_true hself⟩
    rw [RetargetGraph.computeWithCache_congr self.pipeline hpipeline,
      RetargetGraph.executeRoots_congr (d.sinks.map Prod.fst) hroots]

/-- **Leaf discovery is exact, and the session's filters change nothing.**  The leaves
are listed once each; a compound pipeline calls `_compute_with_cache` on no other
retargeter and, when it returns, on all of them; a lone retargeter computes directly;
an execution depends on the leaf inputs only under its leaves' names; and filtering
the collected inputs by the discovered names changes no pipeline's execution, as long
as they do not meet a left-out sink node's own name. -/
theorem leaf_discovery_exact (self : SessionGraphs τ V σ ρ κ) :
    (∀ n, (self.graph.getLeafNodes n).Nodup) ∧
    (∀ c inputs context states,
      let run := self.graph.executePipeline inputs context (.compound c)
        (RetargetGraph.freshCache states)
      (∀ r, .retargeter r ∈ run.2.calls → r ∈ self.graph.getLeafNodes (.compound c)) ∧
      ((∃ outs, run.1 = .ok outs) →
        ∀ r ∈ self.graph.getLeafNodes (.compound c), .retargeter r ∈ run.2.calls)) ∧
    (∀ r inputs context states, self.graph.getLeafNodes (.retargeter r) = [r] ∧
      (self.graph.executePipeline inputs context (.retargeter r)
        (RetargetGraph.freshCache states)).2.calls = []) ∧
    (∀ n inputs inputs' context, RetargetGraph.AgreeOnLeaves self.graph n inputs inputs' →
      self.graph.executePipeline inputs context n
        = self.graph.executePipeline inputs' context n) ∧
    ∀ d, self.discoverSources = .ok d → ∀ collected context states,
      self.executeControl (controlInputs d collected) context states
        = self.executeControl collected context states ∧
      (self.SinkNamesFree d collected →
        self.executeMain d (graphInputs d collected) context states
          = self.executeMain d collected context states) := by
  refine ⟨self.graph.getLeafNodes_nodup, ?_, ?_, ?_, ?_⟩
  · intro c inputs context states
    exact self.graph.executePipeline_calls inputs context states c
  · intro r inputs context states
    refine ⟨by rw [RetargetGraph.getLeafNodes.eq_def], rfl⟩
  · intro n inputs inputs' context hagree
    exact RetargetGraph.executePipeline_congr n hagree
  · intro d hd collected context states
    exact ⟨executeControl_filter hd collected context states,
      fun hfree => executeMain_filter hd collected hfree context states⟩

/-! ### A bare sink beside a control source -/

/-- Records in its state whether its one optional input was present. -/
def recorder (name : String) : Retargeter Unit ℕ ℕ where
  name := name
  inputs := RetargetGraph.single "x" RetargetGraph.valueType.optionalType
  outputs := ∅
  syncParametersFromState := id
  computeFn _ inputs outputs _ := (.ok outputs, match inputs.get? "x" with
    | some group => if group.isNone then 0 else 1
    | none => 0)

local instance neZeroThree : NeZero 3 := ⟨by decide⟩

/-- The counter as the main pipeline, a polled source `"hands"` as the control pipeline
and a bare sink of the given name. -/
def bareSink (sinkName : String) : SessionGraphs Unit ℕ ℕ (Fin 3) Empty where
  graph :=
    { retargeter := fun r => if r = 0 then RetargetGraph.counter
        else if r = 1 then recorder "hands" else recorder sinkName
      compound := fun c => c.elim
      rank := fun c => c.elim
      rank_lt := fun c => c.elim }
  pipeline := .retargeter 0
  teleopControlPipeline := some (.retargeter 1)
  sinks := [.retargeter 2]
  isDeviceIOSource r := r = 1
  isDeviceIOSink r := r = 2

/-- What discovery finds, whatever the sink is called: the sink node is left out. -/
def bareSinkDiscovery : Discovery (Fin 3) Empty where
  sinks := [(.retargeter 2, 2)]
  mainLeafNames := ["counter"]
  controlLeafNames := ["hands"]
  sinkLeafNames := []
  sources := [1]
  externalLeaves := []

/-- The polled tracker data of the control source. -/
def handsInput : OrderedDict String (RetargeterIo Unit ℕ) :=
  RetargetGraph.single "hands" (RetargetGraph.single "x" (RetargetGraph.value 3))

/-- A sink named as the control source finds the source's data in the collected inputs
but not in the filtered ones; and a lone pipeline calls no `_compute_with_cache`. -/
theorem bare_sink_filter_changes :
    (bareSink "hands").discoverSources = .ok bareSinkDiscovery ∧
    ((bareSink "hands").executeMain bareSinkDiscovery (graphInputs bareSinkDiscovery handsInput)
      default fun _ => 0).2.states 2 = 0 ∧
    ((bareSink "hands").executeMain bareSinkDiscovery handsInput default fun _ => 0).2.states 2
      = 1 ∧
    (bareSink "hands").graph.getLeafNodes (.retargeter 0) = [0] ∧
    ((bareSink "hands").graph.executePipeline ∅ default (.retargeter 0)
      (RetargetGraph.freshCache fun _ => 0)).2.calls = [] := by
  decide +kernel

/-- Under a name of its own the sink is not affected. -/
theorem named_sink_filter_same :
    (bareSink "glove").executeMain bareSinkDiscovery (graphInputs bareSinkDiscovery handsInput)
        default (fun _ => 0)
      = (bareSink "glove").executeMain bareSinkDiscovery handsInput default fun _ => 0 := by
  have hd : (bareSink "glove").discoverSources = .ok bareSinkDiscovery := by decide +kernel
  refine ((leaf_discovery_exact (bareSink "glove")).2.2.2.2 bareSinkDiscovery hd handsInput
    default fun _ => 0).2 ?_
  intro sink hsink _ hname
  obtain rfl := List.mem_singleton.mp hsink
  have hfree : "glove" ∉ handsInput.keys := by decide
  exact absurd hname hfree

end SessionGraphs
