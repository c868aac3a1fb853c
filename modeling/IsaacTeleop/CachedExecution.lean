/-
Cached execution of a graph equals its plain recursive evaluation.

Every root of a step goes through one cache.  Along the run the nodes whose own
computation was called are pairwise distinct and listed after their sources; on a
return they are exactly the cached ones.  When no two nodes share a stateful
retargeter, every node still finds its retargeter as the step began, so what is
cached is what the plain evaluation gives.

* `computeWithCache_sound` — one call keeps the order and the uniqueness;
* `computeWithCache_eval` — one call agrees with the evaluation;
* `cached_execution_eq_eval` — both, for any list of roots.
-/
import IsaacTeleop.RetargetGraph
import Mathlib

/-- One earlier computation takes the private state from `state` to `state'`. -/
def Retargeter.Advances {τ V σ : Type} [TensorType τ] (self : Retargeter τ V σ)
    (state state' : σ) : Prop :=
  ∃ inputs context, state' = (self.compute state inputs context).2

/-- No earlier computations change what a computation returns or raises. -/
def Retargeter.Stateless {τ V σ : Type} [TensorType τ] (self : Retargeter τ V σ) : Prop :=
  ∀ state state', Relation.ReflTransGen self.Advances state state' →
    ∀ inputs context, (self.compute state' inputs context).1 = (self.compute state inputs context).1

namespace RetargetGraph

variable {τ V σ ρ κ : Type}

/-- The nodes whose outputs `n` selects. -/
def sources (g : RetargetGraph τ V σ ρ κ) : NodeId ρ κ → List (NodeId ρ κ)
  | .retargeter _ => []
  | .compound c => (g.compound c).selectors.map fun e => e.2.module

/-- `m` is `n` or feeds it through any chain of selectors. -/
def Reaches (g : RetargetGraph τ V σ ρ κ) : NodeId ρ κ → NodeId ρ κ → Prop :=
  Relation.ReflTransGen fun n m => m ∈ g.sources n

/-- Some root reaches `n`. -/
def Reachable (g : RetargetGraph τ V σ ρ κ) (roots : List (NodeId ρ κ)) (n : NodeId ρ κ) : Prop :=
  ∃ root ∈ roots, g.Reaches root n

/-- The own computation of `n` is `compute` of `r`: `n` is the leaf `r` or a
subgraph around it. -/
def Wraps (g : RetargetGraph τ V σ ρ κ) : NodeId ρ κ → ρ → Prop
  | .retargeter r', r => r' = r
  | .compound c, r => ∃ connections types, g.compound c = .subgraph r connections types

/-- Every stateful retargeter is wrapped by at most one node of the graph. -/
def StatefulOnce [TensorType τ] (g : RetargetGraph τ V σ ρ κ) (roots : List (NodeId ρ κ)) : Prop :=
  ∀ r, ¬ (g.retargeter r).Stateless → ∀ n m, g.Reachable roots n → g.Reachable roots m →
    g.Wraps n r → g.Wraps m r → n = m

theorem nodeRank_source_lt (g : RetargetGraph τ V σ ρ κ) {n m : NodeId ρ κ} (h : m ∈ g.sources n) :
    g.nodeRank m < g.nodeRank n := by
  cases n with
  | retargeter r => cases h
  | compound c =>
    obtain ⟨e, he, rfl⟩ := List.mem_map.mp h
    exact g.nodeRank_selector_lt he

theorem Reaches.nodeRank_le {g : RetargetGraph τ V σ ρ κ} {n m : NodeId ρ κ} (h : g.Reaches n m) :
    g.nodeRank m ≤ g.nodeRank n := by
  induction h with
  | refl => exact Nat.le_refl _
  | tail _ hstep ih => exact Nat.le_trans (Nat.le_of_lt (g.nodeRank_source_lt hstep)) ih

theorem reaches_of_source {g : RetargetGraph τ V σ ρ κ} {n m k : NodeId ρ κ} (h : m ∈ g.sources n)
    (hk : g.Reaches m k) : g.Reaches n k :=
  Relation.ReflTransGen.head h hk

/-- A compound node is not reached from its own sources. -/
theorem not_reaches_self {g : RetargetGraph τ V σ ρ κ} {n m : NodeId ρ κ} (h : m ∈ g.sources n) :
    ¬ g.Reaches m n := by
  intro hreach
  exact absurd hreach.nodeRank_le (Nat.not_le_of_lt (g.nodeRank_source_lt h))

/-- `m` is a source of `n` or feeds one. -/
def Below (g : RetargetGraph τ V σ ρ κ) (n m : NodeId ρ κ) : Prop :=
  ∃ k ∈ g.sources n, g.Reaches k m

theorem Below.reaches {g : RetargetGraph τ V σ ρ κ} {n m : NodeId ρ κ} (h : g.Below n m) :
    g.Reaches n m := by
  obtain ⟨k, hk, hm⟩ := h
  exact reaches_of_source hk hm

theorem not_below_self (g : RetargetGraph τ V σ ρ κ) (n : NodeId ρ κ) : ¬ g.Below n n := by
  rintro ⟨k, hk, hreach⟩
  exact not_reaches_self hk hreach

theorem mem_sources {g : RetargetGraph τ V σ ρ κ} {c : κ} {e : String × OutputSelector ρ κ}
    (he : e ∈ (g.compound c).selectors) : e.2.module ∈ g.sources (.compound c) :=
  List.mem_map.mpr ⟨e, he, rfl⟩

/-! ### Every node once, after its sources -/

/-- The computed nodes are distinct and each stands after its sources. -/
structure Sound (g : RetargetGraph τ V σ ρ κ) (s : ExecState τ V σ ρ κ) : Prop where
  nodup : s.computed.Nodup
  sourcesFirst : ∀ before n after, s.computed = before ++ n :: after →
    ∀ m ∈ g.sources n, m ∈ before

/-- Between two calls: moreover the computed nodes are the cached ones. -/
structure Settled (g : RetargetGraph τ V σ ρ κ) (s : ExecState τ V σ ρ κ) : Prop
    extends Sound g s where
  cached_iff : ∀ n, n ∈ s.computed ↔ ∃ outs, s.cachedOutputs n = some outs

/-- The nodes computed between `s` and `s'` all satisfy `P`. -/
def Adds (P : NodeId ρ κ → Prop) (s s' : ExecState τ V σ ρ κ) : Prop :=
  ∃ new, s'.computed = s.computed ++ new ∧ ∀ n ∈ new, P n

theorem Adds.refl (P : NodeId ρ κ → Prop) (s : ExecState τ V σ ρ κ) : Adds P s s :=
  ⟨[], (List.append_nil _).symm, fun _ h => by cases h⟩

theorem Adds.trans {P : NodeId ρ κ → Prop} {s s' s'' : ExecState τ V σ ρ κ} (h : Adds P s s')
    (h' : Adds P s' s'') : Adds P s s'' := by
  obtain ⟨new, hnew, hP⟩ := h
  obtain ⟨new', hnew', hP'⟩ := h'
  refine ⟨new ++ new', by rw [hnew', hnew, List.append_assoc], fun n hn => ?_⟩
  rcases List.mem_append.mp hn with hn | hn
  · exact hP n hn
  · exact hP' n hn

theorem Adds.mono {P P' : NodeId ρ κ → Prop} {s s' : ExecState τ V σ ρ κ} (h : Adds P s s')
    (hP : ∀ n, P n → P' n) : Adds P' s s' := by
  obtain ⟨new, hnew, hnewP⟩ := h
  exact ⟨new, hnew, fun n hn => hP n (hnewP n hn)⟩

theorem Adds.mem_computed {P : NodeId ρ κ → Prop} {s s' : ExecState τ V σ ρ κ} (h : Adds P s s')
    {n : NodeId ρ κ} (hn : n ∈ s.computed) : n ∈ s'.computed := by
  obtain ⟨new, hnew, -⟩ := h
  rw [hnew]
  exact List.mem_append_left new hn

theorem Adds.not_mem_computed {P : NodeId ρ κ → Prop} {s s' : ExecState τ V σ ρ κ}
    (h : Adds P s s') {n : NodeId ρ κ} (hn : n ∉ s.computed) (hP : ¬ P n) : n ∉ s'.computed := by
  obtain ⟨new, hnew, hnewP⟩ := h
  rw [hnew, List.mem_append]
  rintro (hold | hadded)
  · exact hn hold
  · exact hP (hnewP n hadded)

/-- Computing a new node whose sources are all computed keeps the order. -/
theorem Sound.started {g : RetargetGraph τ V σ ρ κ} {s : ExecState τ V σ ρ κ} (h : Sound g s)
    {n : NodeId ρ κ} (hn : n ∉ s.computed) (hsrc : ∀ m ∈ g.sources n, m ∈ s.computed) :
    Sound g (s.started n) := by
  constructor
  · show (s.computed ++ [n]).Nodup
    rw [List.nodup_append]
    refine ⟨h.nodup, List.nodup_singleton n, fun a ha b hb => ?_⟩
    obtain rfl : b = n := List.mem_singleton.mp hb
    rintro rfl
    exact hn ha
  · intro before k after hsplit m hm
    have hsplit' : s.computed ++ [n] = before ++ k :: after := hsplit
    -- the split node is the new last one or stands in the old list
    rcases List.eq_nil_or_concat after with rfl | ⟨after', last, rfl⟩
    · obtain ⟨hbefore, hk⟩ := List.append_inj' hsplit' rfl
      obtain rfl : n = k := by simpa using hk
      rw [← hbefore]
      exact hsrc m hm
    · have hold : s.computed = before ++ k :: after' := by
        have hcat : s.computed ++ [n] = (before ++ k :: after') ++ [last] := by
          rw [hsplit']
          simp
        exact (List.append_inj' hcat rfl).1
      exact h.sourcesFirst before k after' hold m hm

theorem Sound.congr {g : RetargetGraph τ V σ ρ κ} {s s' : ExecState τ V σ ρ κ} (h : Sound g s)
    (hc : s'.computed = s.computed) : Sound g s' :=
  ⟨hc ▸ h.nodup, hc ▸ h.sourcesFirst⟩

theorem Settled.called {g : RetargetGraph τ V σ ρ κ} {s : ExecState τ V σ ρ κ} (h : Settled g s)
    (n : NodeId ρ κ) :
    Settled g (s.called n) :=
  ⟨h.toSound.congr rfl, h.cached_iff⟩

theorem Settled.not_computed {g : RetargetGraph τ V σ ρ κ} {s : ExecState τ V σ ρ κ}
    (h : Settled g s) {n : NodeId ρ κ}
    (hmiss : s.cachedOutputs n = none) : n ∉ s.computed := by
  rw [h.cached_iff, hmiss]
  rintro ⟨outs, houts⟩
  cases houts

theorem Adds.reachable {g : RetargetGraph τ V σ ρ κ} {roots : List (NodeId ρ κ)} {n : NodeId ρ κ}
    {s s' : ExecState τ V σ ρ κ} {P : NodeId ρ κ → Prop}
    (h : Adds P s s') (hP : ∀ m, P m → g.Reaches n m) (hn : g.Reachable roots n)
    (hs : ∀ m ∈ s.computed, g.Reachable roots m) : ∀ m ∈ s'.computed, g.Reachable roots m := by
  obtain ⟨new, hnew, hall⟩ := h
  obtain ⟨root, hroot, hto⟩ := hn
  intro m hm
  rw [hnew] at hm
  rcases List.mem_append.mp hm with hold | hadded
  · exact hs m hold
  · exact ⟨root, hroot, hto.trans (hP m (hall m hadded))⟩

variable [DecidableEq ρ] [DecidableEq κ]

/-- Storing the node just computed settles the state again. -/
theorem Settled.stored {g : RetargetGraph τ V σ ρ κ} {s s' : ExecState τ V σ ρ κ} {n : NodeId ρ κ}
    (h : Settled g s) (hs' : Sound g s') (hcomputed : s'.computed = s.computed ++ [n])
    (hcached : s'.cachedOutputs = s.cachedOutputs) (outs : RetargeterIo τ V) :
    Settled g (s'.stored n outs) := by
  refine ⟨hs'.congr rfl, fun m => ?_⟩
  show m ∈ s'.computed ↔ _
  rw [hcomputed, List.mem_append, List.mem_singleton]
  by_cases hm : m = n
  · subst hm
    rw [ExecState.stored_self]
    exact ⟨fun _ => ⟨outs, rfl⟩, fun _ => Or.inr rfl⟩
  · rw [ExecState.stored_of_ne s' hm, hcached, ← h.cached_iff m]
    exact ⟨fun hor => hor.resolve_right hm, Or.inl⟩

variable [TensorType τ] {g : RetargetGraph τ V σ ρ κ}
  {inputs : OrderedDict String (RetargeterIo τ V)}
  {context : ComputeContext}

/-- What the own computation of a node leaves alone. -/
def SameLog (s s' : ExecState τ V σ ρ κ) : Prop :=
  s'.computed = s.computed ∧ s'.cachedOutputs = s.cachedOutputs ∧ s'.calls = s.calls

omit [DecidableEq κ] in
theorem runCompute_sameLog (r : ρ) (found : RetargeterIo τ V) (s : ExecState τ V σ ρ κ) :
    Fallible.wp (g.runCompute context r found) (fun _ => SameLog s) (fun _ => SameLog s) s :=
  wp_runCompute (fun _ _ => ⟨rfl, rfl, rfl⟩) (fun _ _ => ⟨rfl, rfl, rfl⟩)

omit [DecidableEq κ] in
theorem runCompound_sameLog (c : κ) (found : RetargeterIo τ V) (s : ExecState τ V σ ρ κ) :
    Fallible.wp (g.runCompound context c found) (fun _ => SameLog s) (fun _ => SameLog s) s := by
  rw [runCompound]
  cases g.compound c with
  | subgraph target connections types => exact runCompute_sameLog target found s
  | outputCombiner mapping types => exact Fallible.wp_pure ⟨rfl, rfl, rfl⟩

omit [TensorType τ] in
/-- The own computation of a new node whose sources are computed, from its start
on. -/
theorem own_sound {n : NodeId ρ κ} {s₀ s : ExecState τ V σ ρ κ}
    {own : Exec τ V σ ρ κ (RetargeterIo τ V)} (hs : Settled g s) (hn : n ∉ s.computed)
    (hsrc : ∀ m ∈ g.sources n, m ∈ s.computed) (hadds : Adds (g.Reaches n) s₀ s)
    (hown : Fallible.wp own (fun _ => SameLog (s.started n)) (fun _ => SameLog (s.started n))
      (s.started n)) :
    Fallible.wp (do Fallible.modify (·.started n); own)
      (fun outs s' => Settled g (s'.stored n outs) ∧ Adds (g.Reaches n) s₀ s')
      (fun _ s' => Sound g s' ∧ Adds (g.Reaches n) s₀ s') s := by
  have hstart := hs.toSound.started hn hsrc
  have hadd : ∀ s', SameLog (s.started n) s' → Adds (g.Reaches n) s₀ s' := by
    rintro s' ⟨hcomputed, -, -⟩
    refine hadds.trans ⟨[n], hcomputed, fun m hm => ?_⟩
    obtain rfl : m = n := List.mem_singleton.mp hm
    exact Relation.ReflTransGen.refl
  refine Fallible.wp_bind (Fallible.wp_modify ?_)
  refine Fallible.wp_mono hown ?_ ?_
  · intro outs s' hlog
    exact ⟨hs.stored (hstart.congr hlog.1) hlog.1 hlog.2.1 outs, hadd s' hlog⟩
  · intro e s' hlog
    exact ⟨hstart.congr hlog.1, hadd s' hlog⟩

variable (inputs context) in
/-- Resolving the selectors of `c`, when every single call is sound. -/
theorem gather_sound {c : κ} {s : ExecState τ V σ ρ κ} (hs : Settled g s)
    (hcall : ∀ e ∈ (g.compound c).selectors, ∀ s₁, Settled g s₁ →
      Fallible.wp (g.computeWithCache inputs context e.2.module)
        (fun outs s' => Settled g s' ∧ s'.cachedOutputs e.2.module = some outs ∧
          Adds (g.Reaches e.2.module) s₁ s')
        (fun _ s' => Sound g s' ∧ Adds (g.Reaches e.2.module) s₁ s') s₁) :
    Fallible.wp (gather (g.compound c).selectors
        (fun e _ => g.computeWithCache inputs context e.2.module) ∅)
      (fun _ s' => Settled g s' ∧ Adds (g.Below (.compound c)) s s' ∧
        ∀ m ∈ g.sources (.compound c), m ∈ s'.computed)
      (fun _ s' => Sound g s' ∧ Adds (g.Below (.compound c)) s s') s := by
  -- so far: settled, only nodes below `c` added, the resolved sources computed
  refine Fallible.wp_mono
    (wp_gather (I := fun done _ s' => Settled g s' ∧ Adds (g.Below (.compound c)) s s' ∧
        ∀ e ∈ done, e.2.module ∈ s'.computed)
      (R := fun _ s' => Sound g s' ∧ Adds (g.Below (.compound c)) s s')
      (g.compound c).selectors _ ?_ ?_) ?_ (fun _ _ h => h)
  · intro done e rest hl he found s₁ hinv
    obtain ⟨hsettled, hadds, hdone⟩ := hinv
    have hbelow : ∀ m, g.Reaches e.2.module m → g.Below (.compound c) m :=
      fun m hm => ⟨e.2.module, mem_sources he, hm⟩
    refine Fallible.wp_mono (hcall e he s₁ hsettled) ?_ ?_
    · intro outs s₂ h₂
      obtain ⟨hsettled₂, hcached, hadds₂⟩ := h₂
      have hall := hadds.trans (hadds₂.mono hbelow)
      cases outs.get? e.2.outputName with
      | none => exact ⟨hsettled₂.toSound, hall⟩
      | some group =>
        refine ⟨hsettled₂, hall, fun e' he' => ?_⟩
        rcases List.mem_append.mp he' with hold | hnew
        · exact hadds₂.mem_computed (hdone e' hold)
        · obtain rfl : e' = e := List.mem_singleton.mp hnew
          exact (hsettled₂.cached_iff _).mpr ⟨outs, hcached⟩
    · intro err s₂ h₂
      exact ⟨h₂.1, hadds.trans (h₂.2.mono hbelow)⟩
  · exact ⟨hs, Adds.refl _ s, fun e he => by cases he⟩
  · intro found s₁ hinv
    refine ⟨hinv.1, hinv.2.1, fun m hm => ?_⟩
    obtain ⟨e, he, rfl⟩ := List.mem_map.mp hm
    exact hinv.2.2 e he

/-- **One call of `_compute_with_cache`**: distinct nodes, sources first, and on a
return the node is cached and all that was added is reached from it. -/
theorem computeWithCache_sound (n : NodeId ρ κ) (s : ExecState τ V σ ρ κ) (hs : Settled g s) :
    Fallible.wp (g.computeWithCache inputs context n)
      (fun outs s' => Settled g s' ∧ s'.cachedOutputs n = some outs ∧ Adds (g.Reaches n) s s')
      (fun _ s' => Sound g s' ∧ Adds (g.Reaches n) s s') s := by
  refine wp_computeWithCache ?_ ?_
  · intro outs hcached
    exact ⟨hs.called n, hcached, Adds.refl _ s⟩
  · intro hmiss
    have hn : n ∉ s.computed := hs.not_computed hmiss
    -- A miss computes and then stores what it computed.
    suffices hrun : Fallible.wp (g.computeMiss inputs context n)
        (fun outs s' => Settled g (s'.stored n outs) ∧ Adds (g.Reaches n) s s')
        (fun _ s' => Sound g s' ∧ Adds (g.Reaches n) s s') (s.called n) by
      refine Fallible.wp_mono hrun ?_ (fun _ _ h => h)
      intro outs s' h
      exact ⟨h.1, s'.stored_self n outs, h.2⟩
    cases n with
    | retargeter r =>
      rw [computeMiss]
      refine Fallible.wp_bind ?_
      cases g.leafInputs inputs r with
      | error e => exact Fallible.wp_raise ⟨(hs.called _).toSound, Adds.refl _ s⟩
      | ok found =>
        refine Fallible.wp_pure ?_
        exact own_sound (hs.called _) hn (fun m hm => by cases hm) (Adds.refl _ s)
          (runCompute_sameLog r found _)
    | compound c =>
      rw [computeMiss]
      refine Fallible.wp_bind (Fallible.wp_mono (gather_sound inputs context (hs.called _)
        fun e he s₁ hs₁ => computeWithCache_sound e.2.module s₁ hs₁) ?_ ?_)
      · -- The sources lie below the node, so it was not computed on the way.
        intro found s₁ h₁
        obtain ⟨hsettled, hadds, hsources⟩ := h₁
        exact own_sound hsettled (hadds.not_mem_computed hn (g.not_below_self _)) hsources
          (hadds.mono fun m hm => hm.reaches) (runCompound_sameLog c found _)
      · intro e s₁ h₁
        exact ⟨h₁.1, h₁.2.mono fun m hm => hm.reaches⟩
termination_by g.nodeRank n
decreasing_by exact g.nodeRank_selector_lt he

/-! ### Agreement with the plain evaluation -/

/-- Between two calls of a step begun with `states`: what is cached is what the
evaluation gives, and a retargeter that no computed node wraps is as it was. -/
structure Faithful (g : RetargetGraph τ V σ ρ κ) (inputs : OrderedDict String (RetargeterIo τ V))
    (context : ComputeContext) (states : ρ → σ) (s : ExecState τ V σ ρ κ) : Prop where
  cached_eval : ∀ n outs, s.cachedOutputs n = some outs → g.eval inputs context states n = .ok outs
  advanced : ∀ r, Relation.ReflTransGen (g.retargeter r).Advances (states r) (s.states r)
  untouched : ∀ r, (∀ n ∈ s.computed, ¬ g.Wraps n r) → s.states r = states r

variable {states : ρ → σ} {roots : List (NodeId ρ κ)}

omit [DecidableEq ρ] [DecidableEq κ] in
/-- A reachable node that was not computed yet finds its retargeter as if the step
had just begun. -/
theorem Faithful.compute_eq {s : ExecState τ V σ ρ κ} (h : Faithful g inputs context states s)
    (honce : g.StatefulOnce roots) (hcomputed : ∀ m ∈ s.computed, g.Reachable roots m)
    {n : NodeId ρ κ} (hn : n ∉ s.computed) (hreach : g.Reachable roots n) {r : ρ}
    (hwraps : g.Wraps n r) (found : RetargeterIo τ V) :
    ((g.retargeter r).compute (s.states r) found context).1
      = ((g.retargeter r).compute (states r) found context).1 := by
  by_cases hless : (g.retargeter r).Stateless
  · exact hless _ _ (h.advanced r) found context
  · rw [h.untouched r]
    intro m hm hwraps'
    exact hn (honce r hless n m hreach (hcomputed m hm) hwraps hwraps' ▸ hm)

theorem Faithful.cached_eval_stored {s s' : ExecState τ V σ ρ κ}
    (h : Faithful g inputs context states s) (hcached : s'.cachedOutputs = s.cachedOutputs)
    {n : NodeId ρ κ} {outs : RetargeterIo τ V} (heval : g.eval inputs context states n = .ok outs) :
    ∀ m outs', (s'.stored n outs).cachedOutputs m = some outs' →
      g.eval inputs context states m = .ok outs' := by
  intro m outs' hm
  by_cases hmn : m = n
  · subst hmn
    rw [ExecState.stored_self, Option.some_inj] at hm
    rw [heval, hm]
  · rw [ExecState.stored_of_ne s' hmn, hcached] at hm
    exact h.cached_eval m outs' hm

/-- A combiner gathered its outputs. -/
theorem Faithful.started_stored {s : ExecState τ V σ ρ κ} {n : NodeId ρ κ}
    (h : Faithful g inputs context states s) {outs : RetargeterIo τ V}
    (heval : g.eval inputs context states n = .ok outs) :
    Faithful g inputs context states ((s.started n).stored n outs) where
  cached_eval := h.cached_eval_stored rfl heval
  advanced := h.advanced
  untouched r hnone := h.untouched r fun m hm => hnone m (List.mem_append_left _ hm)

/-- Retargeter `r` ran for the node `n` that wraps it. -/
theorem Faithful.afterCompute_stored {s : ExecState τ V σ ρ κ} {n : NodeId ρ κ} {r : ρ}
    (h : Faithful g inputs context states s) (hwraps : g.Wraps n r) (found : RetargeterIo τ V)
    {outs : RetargeterIo τ V} (heval : g.eval inputs context states n = .ok outs) :
    Faithful g inputs context states
      ((g.afterCompute context r found (s.started n)).stored n outs) := by
  refine ⟨h.cached_eval_stored rfl heval, ?_, ?_⟩
  · intro r'
    show Relation.ReflTransGen (g.retargeter r').Advances (states r')
      (Function.update s.states r ((g.retargeter r).compute (s.states r) found context).2 r')
    -- Only the retargeter that computed has moved on.
    by_cases hr : r' = r
    · subst hr
      rw [Function.update_self]
      exact (h.advanced r').tail ⟨found, context, rfl⟩
    · rw [Function.update_of_ne hr]
      exact h.advanced r'
  · intro r' hnone
    show Function.update s.states r ((g.retargeter r).compute (s.states r) found context).2 r'
      = states r'
    have hnone' : ∀ m ∈ s.computed ++ [n], ¬ g.Wraps m r' := hnone
    have hr : r' ≠ r := by
      rintro rfl
      exact hnone' n (by simp) hwraps
    rw [Function.update_of_ne hr]
    exact h.untouched r' fun m hm => hnone' m (List.mem_append_left _ hm)

/-- The evaluation as a computation that keeps nothing. -/
def evalAction (g : RetargetGraph τ V σ ρ κ) (inputs : OrderedDict String (RetargeterIo τ V))
    (context : ComputeContext) (states : ρ → σ) (n : NodeId ρ κ) :
    Fallible Unit (GraphError τ) (RetargeterIo τ V) :=
  fun _ => (g.eval inputs context states n, ())

/-- What the evaluation finds for a list of selectors. -/
def evalSources (g : RetargetGraph τ V σ ρ κ) (inputs : OrderedDict String (RetargeterIo τ V))
    (context : ComputeContext) (states : ρ → σ) (l : List (String × OutputSelector ρ κ))
    (found : RetargeterIo τ V) : Except (GraphError τ) (RetargeterIo τ V) :=
  (gather l (fun e _ => g.evalAction inputs context states e.2.module) found ()).1

omit [DecidableEq ρ] [DecidableEq κ] in
theorem evalSources_cons (e : String × OutputSelector ρ κ)
    (l : List (String × OutputSelector ρ κ)) (found : RetargeterIo τ V) :
    g.evalSources inputs context states (e :: l) found =
      match g.eval inputs context states e.2.module with
      | .error err => .error err
      | .ok outs => match outs.get? e.2.outputName with
        | none => .error (.keyError e.2.outputName)
        | some group => g.evalSources inputs context states l (found.insert e.1 group) := by
  rw [evalSources, gather]
  show (Fallible.bind (g.evalAction inputs context states e.2.module) _ ()).1 = _
  rw [Fallible.bind, evalAction]
  cases g.eval inputs context states e.2.module with
  | error err => rfl
  | ok outs =>
    dsimp only
    cases outs.get? e.2.outputName with
    | none => rfl
    | some group => rfl

omit [DecidableEq ρ] [DecidableEq κ] in
theorem eval_retargeter (g : RetargetGraph τ V σ ρ κ)
    (inputs : OrderedDict String (RetargeterIo τ V))
    (context : ComputeContext) (states : ρ → σ) (r : ρ) :
    g.eval inputs context states (.retargeter r) =
      match g.leafInputs inputs r with
      | .error e => .error e
      | .ok found => ((g.retargeter r).compute (states r) found context).1 := by
  unfold eval
  rfl

omit [DecidableEq ρ] [DecidableEq κ] in
theorem eval_compound (g : RetargetGraph τ V σ ρ κ) (inputs : OrderedDict String (RetargeterIo τ V))
    (context : ComputeContext) (states : ρ → σ) (c : κ) :
    g.eval inputs context states (.compound c) =
      match g.evalSources inputs context states (g.compound c).selectors ∅ with
      | .error e => .error e
      | .ok found => match g.compound c with
        | .subgraph target _ _ =>
          ((g.retargeter target).compute (states target) found context).1
        | .outputCombiner _ _ => .ok found := by
  rw [eval]
  rfl

/-- The own computation of a leaf or a subgraph whose inputs are the evaluation's. -/
theorem runCompute_eval {s : ExecState τ V σ ρ κ} {n : NodeId ρ κ} {r : ρ}
    {found : RetargeterIo τ V} (hf : Faithful g inputs context states s)
    (honce : g.StatefulOnce roots) (hcomputed : ∀ m ∈ s.computed, g.Reachable roots m)
    (hn : n ∉ s.computed) (hreach : g.Reachable roots n) (hwraps : g.Wraps n r)
    (heval : g.eval inputs context states n
      = ((g.retargeter r).compute (states r) found context).1) :
    Fallible.wp (g.runCompute context r found)
      (fun outs s' => Faithful g inputs context states (s'.stored n outs) ∧
        g.eval inputs context states n = .ok outs)
      (fun e _ => g.eval inputs context states n = .error e) (s.started n) := by
  have hsame := hf.compute_eq honce hcomputed hn hreach hwraps found
  refine wp_runCompute ?_ ?_
  · intro outs hok
    have hres : g.eval inputs context states n = .ok outs := by
      rw [heval, ← hsame]
      exact hok
    exact ⟨hf.afterCompute_stored hwraps found hres, hres⟩
  · intro e herr
    rw [heval, ← hsame]
    exact herr

/-- Resolving the selectors of `c`, when every single call agrees with the
evaluation. -/
theorem gather_eval {c : κ} {s : ExecState τ V σ ρ κ} (hs : Settled g s)
    (hf : Faithful g inputs context states s)
    (hcall : ∀ e ∈ (g.compound c).selectors, ∀ s₁, Settled g s₁ →
      Faithful g inputs context states s₁ → Adds (g.Below (.compound c)) s s₁ →
      Fallible.wp (g.computeWithCache inputs context e.2.module)
        (fun outs s' => Faithful g inputs context states s' ∧
          g.eval inputs context states e.2.module = .ok outs)
        (fun err _ => g.eval inputs context states e.2.module = .error err) s₁) :
    Fallible.wp (gather (g.compound c).selectors
        (fun e _ => g.computeWithCache inputs context e.2.module) ∅)
      (fun found s' => Faithful g inputs context states s' ∧
        g.evalSources inputs context states (g.compound c).selectors ∅ = .ok found)
      (fun err _ =>
        g.evalSources inputs context states (g.compound c).selectors ∅ = .error err) s := by
  -- the evaluation has reached the same point of the selector list
  refine Fallible.wp_mono
    (wp_gather (I := fun done found s' => Settled g s' ∧ Faithful g inputs context states s' ∧
        Adds (g.Below (.compound c)) s s' ∧
        ∀ rest, (g.compound c).selectors = done ++ rest →
          g.evalSources inputs context states (g.compound c).selectors ∅
            = g.evalSources inputs context states rest found)
      (R := fun err _ =>
        g.evalSources inputs context states (g.compound c).selectors ∅ = .error err)
      (g.compound c).selectors _ ?_ ?_) ?_ (fun _ _ h => h)
  · intro done e rest hl he found s₁ hinv
    obtain ⟨hsettled, hf₁, hadds, hpoint⟩ := hinv
    have hnext := hpoint (e :: rest) hl
    rw [evalSources_cons] at hnext
    refine Fallible.wp_mono (Fallible.wp_and (computeWithCache_sound e.2.module s₁ hsettled)
      (hcall e he s₁ hsettled hf₁ hadds)) ?_ ?_
    · intro outs s₂ h₂
      obtain ⟨⟨hsettled₂, -, hadds₂⟩, hf₂, houts⟩ := h₂
      rw [houts] at hnext
      dsimp only at hnext
      cases hget : outs.get? e.2.outputName with
      | none =>
        rw [hget] at hnext
        exact hnext
      | some group =>
        rw [hget] at hnext
        have hall := hadds.trans (hadds₂.mono fun m hm => ⟨e.2.module, mem_sources he, hm⟩)
        refine ⟨hsettled₂, hf₂, hall, fun rest' hl' => ?_⟩
        obtain rfl : rest = rest' := by
          rw [hl, List.append_assoc] at hl'
          simpa using hl'
        exact hnext
    · intro err s₂ h₂
      rw [h₂.2] at hnext
      exact hnext
  · exact ⟨hs, hf, Adds.refl _ s, fun rest hl => by rw [hl, List.nil_append]⟩
  · intro found s₁ hinv
    exact ⟨hinv.2.1, hinv.2.2.2 [] (List.append_nil _).symm⟩

/-- **One call agrees with the evaluation**, whether it returns or raises. -/
theorem computeWithCache_eval (honce : g.StatefulOnce roots) (n : NodeId ρ κ)
    (hreach : g.Reachable roots n) (s : ExecState τ V σ ρ κ) (hs : Settled g s)
    (hcomputed : ∀ m ∈ s.computed, g.Reachable roots m)
    (hf : Faithful g inputs context states s) :
    Fallible.wp (g.computeWithCache inputs context n)
      (fun outs s' => Faithful g inputs context states s' ∧
        g.eval inputs context states n = .ok outs)
      (fun e _ => g.eval inputs context states n = .error e) s := by
  -- On the rank: the sources of a node stand below it.
  induction hk : g.nodeRank n using Nat.strongRecOn generalizing n s with
  | _ k ih =>
  refine wp_computeWithCache ?_ ?_
  · intro outs hcached
    exact ⟨⟨hf.cached_eval, hf.advanced, hf.untouched⟩, hf.cached_eval n outs hcached⟩
  · intro hmiss
    have hn : n ∉ s.computed := hs.not_computed hmiss
    have hcalled : Faithful g inputs context states (s.called n) :=
      ⟨hf.cached_eval, hf.advanced, hf.untouched⟩
    cases n with
    | retargeter r =>
      have heval := g.eval_retargeter inputs context states r
      rw [computeMiss]
      refine Fallible.wp_bind ?_
      cases hleaf : g.leafInputs inputs r with
      | error e =>
        rw [hleaf] at heval
        exact Fallible.wp_raise heval
      | ok found =>
        rw [hleaf] at heval
        refine Fallible.wp_pure (Fallible.wp_bind (Fallible.wp_modify ?_))
        exact runCompute_eval hcalled honce hcomputed hn hreach rfl heval
    | compound c =>
      have heval := g.eval_compound inputs context states c
      -- What the sources compute is reachable, as the node is.
      have hbelow : ∀ s', Adds (g.Below (.compound c)) s s' →
          ∀ m ∈ s'.computed, g.Reachable roots m :=
        fun s' h => h.reachable (fun m hm => hm.reaches) hreach hcomputed
      have hcall := gather_eval (c := c) (hs.called _) hcalled fun e he s₁ hs₁ hf₁ hadds => by
        have hsource : g.Reachable roots e.2.module := by
          obtain ⟨root, hroot, hto⟩ := hreach
          exact ⟨root, hroot, hto.tail (mem_sources he)⟩
        exact ih _ (hk ▸ g.nodeRank_selector_lt he) e.2.module hsource s₁ hs₁ (hbelow s₁ hadds)
          hf₁ rfl
      have hsound := gather_sound inputs context (c := c) (hs.called (.compound c))
        fun e he s₁ hs₁ => computeWithCache_sound e.2.module s₁ hs₁
      rw [computeMiss]
      refine Fallible.wp_bind (Fallible.wp_mono (Fallible.wp_and hsound hcall) ?_ ?_)
      · intro found s₁ h₁
        obtain ⟨⟨-, hadds, -⟩, hf₁, hfound⟩ := h₁
        -- The node is not among what its sources compute.
        have hfresh := hadds.not_mem_computed hn (g.not_below_self _)
        rw [hfound] at heval
        refine Fallible.wp_bind (Fallible.wp_modify ?_)
        rw [runCompound]
        cases hc : g.compound c with
        | subgraph target connections types =>
          rw [hc] at heval
          exact runCompute_eval hf₁ honce (hbelow s₁ hadds) hfresh hreach
            ⟨connections, types, hc⟩ heval
        | outputCombiner mapping types =>
          rw [hc] at heval
          exact Fallible.wp_pure ⟨hf₁.started_stored heval, heval⟩
      · intro err s₁ h₁
        rw [h₁.2] at heval
        exact heval

/-! ### Several roots through one cache -/

omit [DecidableEq ρ] [DecidableEq κ] [TensorType τ] in
/-- A computed node's sources, direct or not, stand before it. -/
theorem Sound.below_first {s : ExecState τ V σ ρ κ} (h : Sound g s) {n m : NodeId ρ κ}
    (hbelow : g.Below n m) {before after : List (NodeId ρ κ)}
    (hsplit : s.computed = before ++ n :: after) : m ∈ before := by
  obtain ⟨k, hk, hreach⟩ := hbelow
  have hkb : k ∈ before := h.sourcesFirst before n after hsplit k hk
  -- along the chain: each member stands before `n`, hence so do its own sources
  induction hreach with
  | refl => exact hkb
  | @tail b _ _ hstep ih =>
    obtain ⟨first, second, hfirst⟩ := List.append_of_mem ih
    have hsplit' : s.computed = first ++ b :: (second ++ n :: after) := by
      rw [hsplit, hfirst]
      simp
    have hmem := h.sourcesFirst first b _ hsplit' _ hstep
    rw [hfirst]
    exact List.mem_append_left _ hmem

omit [DecidableEq ρ] [DecidableEq κ] [TensorType τ] in
theorem Sound.computed_of_reaches {s : ExecState τ V σ ρ κ} (h : Sound g s) {n m : NodeId ρ κ}
    (hn : n ∈ s.computed) (hreach : g.Reaches n m) : m ∈ s.computed := by
  rcases hreach.cases_head with rfl | ⟨k, hk, htail⟩
  · exact hn
  · obtain ⟨before, after, hsplit⟩ := List.append_of_mem hn
    rw [hsplit]
    exact List.mem_append_left _ (h.below_first ⟨k, hk, htail⟩ hsplit)

variable (inputs context) in
theorem executeRoots_sound (l : List (NodeId ρ κ)) (s : ExecState τ V σ ρ κ) (hs : Settled g s) :
    Fallible.wp (g.executeRoots inputs context l)
      (fun _ s' => Settled g s' ∧ Adds (g.Reachable l) s s' ∧ ∀ root ∈ l, root ∈ s'.computed)
      (fun _ s' => Sound g s' ∧ Adds (g.Reachable l) s s') s := by
  induction l generalizing s with
  | nil => exact Fallible.wp_pure ⟨hs, Adds.refl _ s, fun root h => by cases h⟩
  | cons root rest ih =>
    have hroot : ∀ m, g.Reaches root m → g.Reachable (root :: rest) m :=
      fun m hm => ⟨root, List.mem_cons_self, hm⟩
    have hrest : ∀ m, g.Reachable rest m → g.Reachable (root :: rest) m := by
      rintro m ⟨root', hroot', hm⟩
      exact ⟨root', List.mem_cons_of_mem _ hroot', hm⟩
    rw [executeRoots]
    refine Fallible.wp_bind (Fallible.wp_mono (computeWithCache_sound root s hs) ?_ ?_)
    · intro outs s₁ h₁
      obtain ⟨hsettled, hcached, hadds⟩ := h₁
      refine Fallible.wp_bind (Fallible.wp_mono (ih s₁ hsettled) ?_ ?_)
      · intro others s₂ h₂
        obtain ⟨hsettled₂, hadds₂, hroots⟩ := h₂
        refine Fallible.wp_pure ⟨hsettled₂, (hadds.mono hroot).trans (hadds₂.mono hrest), ?_⟩
        intro root' hmem
        -- What the first root computed stays computed.
        rcases List.mem_cons.mp hmem with rfl | htail
        · exact hadds₂.mem_computed ((hsettled.cached_iff _).mpr ⟨outs, hcached⟩)
        · exact hroots root' htail
      · intro e s₂ h₂
        exact ⟨h₂.1, (hadds.mono hroot).trans (h₂.2.mono hrest)⟩
    · intro e s₁ h₁
      exact ⟨h₁.1, h₁.2.mono hroot⟩

variable (inputs context) in
theorem executeRoots_eval (honce : g.StatefulOnce roots) (l : List (NodeId ρ κ))
    (hl : ∀ root ∈ l, root ∈ roots) (s : ExecState τ V σ ρ κ) (hs : Settled g s)
    (hcomputed : ∀ m ∈ s.computed, g.Reachable roots m)
    (hf : Faithful g inputs context states s) :
    Fallible.wp (g.executeRoots inputs context l)
      (fun outs _ => l.mapM (g.eval inputs context states) = .ok outs)
      (fun e _ => l.mapM (g.eval inputs context states) = .error e) s := by
  induction l generalizing s with
  | nil => exact Fallible.wp_pure rfl
  | cons root rest ih =>
    have hreach : g.Reachable roots root :=
      ⟨root, hl root List.mem_cons_self, Relation.ReflTransGen.refl⟩
    rw [executeRoots, List.mapM_cons]
    refine Fallible.wp_bind (Fallible.wp_mono (Fallible.wp_and (computeWithCache_sound root s hs)
      (computeWithCache_eval honce root hreach s hs hcomputed hf)) ?_ ?_)
    · -- The first root has settled what the others may share with it.
      intro outs s₁ h₁
      obtain ⟨⟨hsettled, -, hadds⟩, hf₁, houts⟩ := h₁
      have hcomputed₁ := hadds.reachable (fun m hm => hm) hreach hcomputed
      have hrest := ih (fun r hr => hl r (List.mem_cons_of_mem _ hr)) s₁ hsettled hcomputed₁ hf₁
      refine Fallible.wp_bind (Fallible.wp_mono hrest ?_ ?_)
      · intro others s₂ h₂
        refine Fallible.wp_pure ?_
        rw [houts, h₂]
        rfl
      · intro e s₂ h₂
        rw [houts, h₂]
        rfl
    · intro e s₁ h₁
      rw [h₁.2]
      rfl

omit [DecidableEq ρ] [DecidableEq κ] [TensorType τ] in
theorem freshCache_settled (states : ρ → σ) : Settled g (freshCache states) where
  nodup := List.nodup_nil
  sourcesFirst before n after h := absurd h (by simp [freshCache])
  cached_iff n := ⟨fun h => (by cases h), fun ⟨_, h⟩ => (by cases h)⟩

omit [DecidableEq ρ] [DecidableEq κ] in
theorem freshCache_faithful (g : RetargetGraph τ V σ ρ κ) (states : ρ → σ) :
    Faithful g inputs context states (freshCache states) where
  cached_eval n outs h := by cases h
  advanced r := Relation.ReflTransGen.refl
  untouched r _ := rfl

/-- **Cached execution runs each node once and equals the plain evaluation.**  For
any roots through one cache: no node's own computation is called twice, only
reachable ones are, each after everything it depends on, and every one of them when
the run returns; and when no two nodes share a stateful retargeter, the run returns
or raises what the evaluation from the states at the start of the step does. -/
theorem cached_execution_eq_eval (g : RetargetGraph τ V σ ρ κ)
    (inputs : OrderedDict String (RetargeterIo τ V)) (context : ComputeContext)
    (states : ρ → σ) (roots : List (NodeId ρ κ)) :
    let run := g.executeRoots inputs context roots (freshCache states)
    (∀ n, run.2.computed.count n ≤ 1) ∧
    (∀ n ∈ run.2.computed, g.Reachable roots n) ∧
    (∀ before n after, run.2.computed = before ++ n :: after → ∀ m, g.Below n m → m ∈ before) ∧
    ((∃ outs, run.1 = .ok outs) → ∀ n, g.Reachable roots n → run.2.computed.count n = 1) ∧
    (g.StatefulOnce roots → run.1 = roots.mapM (g.eval inputs context states)) := by
  intro run
  have hsound := executeRoots_sound inputs context roots (freshCache states)
    (freshCache_settled (g := g) states)
  -- Sound whether the run returns or raises.
  have hstate : Sound g run.2 ∧ Adds (g.Reachable roots) (freshCache states) run.2 :=
    Fallible.wp_state (Fallible.wp_mono hsound (fun _ _ h => ⟨h.1.toSound, h.2.1⟩) (fun _ _ h => h))
  obtain ⟨hrun, new, hnew, hreachable⟩ := hstate
  have hcomputed : run.2.computed = new := hnew
  refine ⟨fun n => List.nodup_iff_count_le_one.mp hrun.nodup n, ?_, ?_, ?_, ?_⟩
  · rw [hcomputed]
    exact hreachable
  · intro before n after hsplit m hbelow
    exact hrun.below_first hbelow hsplit
  · -- A run that returns has computed its roots, and so all that they reach.
    rintro ⟨outs, houts⟩ n ⟨root, hroot, hto⟩
    have hroots : ∀ root ∈ roots, root ∈ run.2.computed :=
      (Fallible.wp_ok hsound (Prod.ext houts rfl)).2.2
    exact List.count_eq_one_of_mem hrun.nodup (hrun.computed_of_reaches (hroots root hroot) hto)
  · intro honce
    have heval := executeRoots_eval inputs context honce roots
      (fun _ h => h) (freshCache states) (freshCache_settled states)
      (fun m hm => by cases hm) (freshCache_faithful g states)
    cases hres : run.1 with
    | ok outs => exact (Fallible.wp_ok heval (Prod.ext hres rfl)).symm
    | error e => exact (Fallible.wp_error heval (Prod.ext hres rfl)).symm

/-! ### A shared stateful source -/

/-- One tensor type, compatible with itself. -/
instance : TensorType Unit where
  name _ := "value"
  cls _ := 0
  checkInstanceCompatibility _ _ := true

/-- A required group of one tensor. -/
def valueType : TensorGroupType Unit := ⟨"value", [()], false⟩

def value (v : ℕ) : TensorGroup Unit ℕ := ⟨valueType, true, false, [some v], rfl, rfl⟩

def single {α : Type} (name : String) (a : α) : OrderedDict String α :=
  (∅ : OrderedDict String α).insert name a

/-- A counter without inputs: it writes how often it ran. -/
def counter : Retargeter Unit ℕ ℕ where
  name := "counter"
  inputs := ∅
  outputs := single "x" valueType
  syncParametersFromState := id
  computeFn n _ _ _ := (.ok (single "x" (value n)), n + 1)

/-- A pass-through from `"x"` to `"y"`. -/
def forward : Retargeter Unit ℕ ℕ where
  name := "forward"
  inputs := single "x" valueType
  outputs := single "y" valueType
  syncParametersFromState := id
  computeFn n inputs outputs _ :=
    let x := ((inputs.get? "x").bind fun group => group.tensors.head?.join).getD 0
    (.ok (outputs.insert "y" (value x)), n)

/-- The counter feeds the pass-through and, beside it, a combiner over both. -/
def diamond : RetargetGraph Unit ℕ ℕ Bool Bool where
  retargeter r := if r then forward else counter
  compound c :=
    if c then .outputCombiner
      ((single "direct" ⟨.retargeter false, "x"⟩).insert "forwarded" ⟨.compound false, "y"⟩)
      ((single "direct" valueType).insert "forwarded" valueType)
    else .subgraph true (single "x" ⟨.retargeter false, "x"⟩) (single "y" valueType)
  rank c := if c then 1 else 0
  rank_lt := by decide

theorem forward_stateless : forward.Stateless := by
  intro state state' _ inputs context
  rw [Retargeter.compute, Retargeter.compute]
  cases forward.checkedInputs inputs with
  | error e => rfl
  | ok filled => rfl

theorem diamond_statefulOnce (roots : List (NodeId Bool Bool)) : diamond.StatefulOnce roots := by
  -- only the leaf `counter` wraps the one stateful retargeter
  have hleaf : ∀ n, diamond.Wraps n false → n = .retargeter false := by
    intro n hn
    cases n with
    | retargeter r => exact congrArg NodeId.retargeter hn
    | compound c =>
      obtain ⟨connections, types, hc⟩ := hn
      cases c
      · cases hc
      · cases hc
  intro r hstateful n m _ _ hn hm
  cases r with
  | false => rw [hleaf n hn, hleaf m hm]
  | true => exact absurd forward_stateless hstateful

/-- The counter runs once for three paths, and both roots see the same count. -/
theorem diamond_execution_eq_eval :
    let run := diamond.executeRoots ∅ default [.compound true, .compound false]
      (freshCache fun _ => 7)
    run.2.computed.count (.retargeter false) = 1 ∧
    run.1 = [NodeId.compound true, .compound false].mapM (diamond.eval ∅ default fun _ => 7) := by
  intro run
  obtain ⟨-, -, -, hall, heval⟩ := cached_execution_eq_eval diamond ∅ default (fun _ => 7)
    [.compound true, .compound false]
  refine ⟨hall ?_ _ ⟨.compound false, by simp, Relation.ReflTransGen.single (by decide)⟩,
    heval (diamond_statefulOnce _)⟩
  have hok : run.1.toBool = true := by decide +kernel
  cases hres : run.1 with
  | ok outs => exact ⟨outs, rfl⟩
  | error e =>
    rw [hres] at hok
    cases hok

end RetargetGraph
