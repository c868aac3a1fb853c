/-
The render demand of an OVXR session.

A request that finds the demand open closes it, publishes a scene under the publication guard and
leaves its ordinal for the worker; a request that fails opens the demand again, and so does the
worker when it takes an ordinal.  The lock is held for the decision, for the hand-over and for the
take, but not for the publication, so that requests overlap: each access is a step of its own.

The index of a publication is not in the program: it tells publications apart that carry the same
ordinal.

* `Session.step`, `Session.run` — the requests and the worker, before a shutdown;
* `Session.Inv` — closed demand comes with an ordinal or with a request that is not done;
* `render_demand` — all runs.
-/
import Mathlib

namespace RenderDemand

variable {α : Type}

/-! ### Requests and the worker -/

structure Publication (α : Type) where
  index : ℕ
  ordinal : α

/-- How far a `request_render` has come. -/
inductive Call (α : Type)
  | absent
  | declined
  | admitted
  /-- it holds the publication guard -/
  | publishing
  | published (p : Publication α)
  /-- `_worker_last_published_ordinal` is set -/
  | noted (p : Publication α)
  /-- `_worker_pending_ordinal` is set -/
  | handed (p : Publication α)
  /-- an exception has left the guard, and demand is not open again yet -/
  | failing
  | raised
  | returned (p : Publication α)

namespace Call

def InProgress : Call α → Prop
  | .admitted | .publishing | .published _ | .noted _ | .handed _ | .failing => True
  | _ => False

/-- The calls that have closed demand, and have yet to hand an ordinal over or to open it again. -/
def Owes : Call α → Prop
  | .admitted | .publishing | .published _ | .noted _ | .failing => True
  | _ => False

/-- The calls inside `publication_guard`. -/
def HoldsGuard : Call α → Prop
  | .publishing | .published _ | .noted _ | .handed _ => True
  | _ => False

/-- The publication of a call that has not handed it over. -/
def unhanded : Call α → Option (Publication α)
  | .published p | .noted p => some p
  | _ => none

/-- The publication of a call that has. -/
def delivered : Call α → Option (Publication α)
  | .handed p | .returned p => some p
  | _ => none

theorem holdsGuard_of_unhanded {call : Call α} {p : Publication α}
    (h : call.unhanded = some p) : call.HoldsGuard := by
  cases call with
  | published => trivial
  | noted => trivial
  | _ => cases h

end Call

structure Session (α : Type) where
  publicationRequested : Bool
  lastPublishedOrdinal : Option α
  pendingOrdinal : Option (Publication α)
  calls : ℕ → Call α
  /-- The call that holds the publication guard. -/
  guard : Option ℕ
  /-- What the worker has taken and not rendered yet. -/
  taken : Option (Publication α)
  /-- All publications so far. -/
  publications : List α
  rendered : List (Publication α)

inductive Event (α : Type)
  | request (c : ℕ) (force : Bool)
  | acquire (c : ℕ)
  | publish (c : ℕ) (ordinal : α)
  | note (c : ℕ)
  | hand (c : ℕ)
  | finish (c : ℕ)
  | raise (c : ℕ)
  | fail (c : ℕ)
  | take
  | render

namespace Session

def setCall (s : Session α) (c : ℕ) (call : Call α) : Session α :=
  { s with calls := Function.update s.calls c call }

/-- Whether an ordinary request is declined. -/
def declines (s : Session α) : Bool :=
  s.lastPublishedOrdinal.isSome && !s.publicationRequested

/-- One access of a call or of the worker; nothing where it cannot happen. -/
def step (s : Session α) : Event α → Option (Session α)
  | .request c force =>
    match s.calls c with
    | .absent =>
      if !force && s.declines then some (s.setCall c .declined)
      else some { s.setCall c .admitted with publicationRequested := false }
    | _ => none
  | .acquire c =>
    match s.calls c, s.guard with
    | .admitted, none => some { s.setCall c .publishing with guard := some c }
    | _, _ => none
  | .publish c ordinal =>
    match s.calls c with
    | .publishing =>
      some { s.setCall c (.published ⟨s.publications.length, ordinal⟩) with
        publications := s.publications ++ [ordinal] }
    | _ => none
  | .note c =>
    match s.calls c with
    | .published p =>
      some { s.setCall c (.noted p) with lastPublishedOrdinal := some p.ordinal }
    | _ => none
  | .hand c =>
    match s.calls c with
    | .noted p => some { s.setCall c (.handed p) with pendingOrdinal := some p }
    | _ => none
  | .finish c =>
    match s.calls c with
    | .handed p => some { s.setCall c (.returned p) with guard := none }
    | _ => none
  | .raise c =>
    match s.calls c with
    | .admitted => some (s.setCall c .failing)
    | .publishing | .published _ | .noted _ | .handed _ =>
      some { s.setCall c .failing with guard := none }
    | _ => none
  | .fail c =>
    match s.calls c with
    | .failing => some { s.setCall c .raised with publicationRequested := true }
    | _ => none
  | .take =>
    match s.taken with
    | none =>
      some { s with
        pendingOrdinal := none
        taken := s.pendingOrdinal
        publicationRequested := s.publicationRequested || s.pendingOrdinal.isSome }
    | some _ => none
  | .render =>
    match s.taken with
    | some p => some { s with taken := none, rendered := s.rendered ++ [p] }
    | none => none

def run (s : Session α) : List (Event α) → Option (Session α)
  | [] => some s
  | event :: events => (s.step event).bind fun s' => s'.run events

/-- A session whose worker has started. -/
def started : Session α where
  publicationRequested := true
  lastPublishedOrdinal := none
  pendingOrdinal := none
  calls _ := .absent
  guard := none
  taken := none
  publications := []
  rendered := []

/-! ### What holds between two steps -/

/-- What the worker has rendered, has taken and will find, in this order. -/
def handedOver (s : Session α) : List (Publication α) :=
  s.rendered ++ s.taken.toList ++ s.pendingOrdinal.toList

structure Inv (s : Session α) : Prop where
  /-- Closed demand comes with an ordinal, or with a request that will see to it. -/
  demand : s.publicationRequested = false →
    s.pendingOrdinal ≠ none ∨ ∃ c, (s.calls c).Owes
  guarded : ∀ c, (s.calls c).HoldsGuard → s.guard = some c
  order : (s.handedOver.map Publication.index).Pairwise (· < ·)
  genuine : ∀ p ∈ s.handedOver, s.publications[p.index]? = some p.ordinal
  /-- A publication that is not handed over is the last one, and it is not handed over. -/
  unhanded : ∀ c p, (s.calls c).unhanded = some p →
    p.index + 1 = s.publications.length ∧ s.publications[p.index]? = some p.ordinal ∧
      ∀ q ∈ s.handedOver, q.index < p.index
  /-- What was handed over and is gone has been overwritten by a later publication. -/
  delivered : ∀ c p, (s.calls c).delivered = some p →
    p ∈ s.handedOver ∨ p.index + 1 < s.publications.length

theorem inv_started : (started : Session α).Inv where
  demand h := by cases h
  guarded _ h := h.elim
  order := List.Pairwise.nil
  genuine _ h := by cases h
  unhanded _ _ h := by cases h
  delivered _ _ h := by cases h

theorem Inv.holder_unique {s : Session α} (h : s.Inv) {c c' : ℕ} (hc : (s.calls c).HoldsGuard)
    (hc' : (s.calls c').HoldsGuard) : c = c' :=
  Option.some.inj ((h.guarded c hc).symm.trans (h.guarded c' hc'))

/-- A step of one call that publishes nothing and hands nothing over. -/
theorem Inv.of_call {s s' : Session α} (h : s.Inv) {c : ℕ} {call : Call α}
    (hcalls : s'.calls = Function.update s.calls c call)
    (hpublications : s'.publications = s.publications) (hhanded : s'.handedOver = s.handedOver)
    (hpending : s'.pendingOrdinal = s.pendingOrdinal)
    (hdemand : s'.publicationRequested = false →
      call.Owes ∨ s.publicationRequested = false ∧ ¬ (s.calls c).Owes)
    (hguard : ∀ c', c' ≠ c → (s.calls c').HoldsGuard → s'.guard = some c')
    (hcall : call.HoldsGuard → s'.guard = some c)
    (hunhanded : ∀ p, call.unhanded = some p → (s.calls c).unhanded = some p)
    (hdelivered : ∀ p, call.delivered = some p → (s.calls c).delivered = some p) : s'.Inv where
  demand hrequested := by
    -- The demand is owed by this call, by another one, or it is pending.
    rcases hdemand hrequested with howes | ⟨hold, hidle⟩
    · exact .inr ⟨c, by rw [hcalls, Function.update_self]; exact howes⟩
    · rcases h.demand hold with hsome | ⟨c', hc'⟩
      · exact .inl (hpending ▸ hsome)
      · have hne : c' ≠ c := by
          rintro rfl
          exact hidle hc'
        exact .inr ⟨c', by rw [hcalls, Function.update_of_ne hne]; exact hc'⟩
  guarded c' hc' := by
    rw [hcalls] at hc'
    by_cases heq : c' = c
    · rw [heq, Function.update_self] at hc'
      exact heq ▸ hcall hc'
    · rw [Function.update_of_ne heq] at hc'
      exact hguard c' heq hc'
  order := hhanded ▸ h.order
  genuine p hp := by
    rw [hpublications]
    exact h.genuine p (hhanded ▸ hp)
  unhanded c' p hp := by
    rw [hpublications, hhanded]
    rw [hcalls] at hp
    by_cases heq : c' = c
    · rw [heq, Function.update_self] at hp
      exact h.unhanded c p (hunhanded p hp)
    · rw [Function.update_of_ne heq] at hp
      exact h.unhanded c' p hp
  delivered c' p hp := by
    rw [hpublications, hhanded]
    rw [hcalls] at hp
    by_cases heq : c' = c
    · rw [heq, Function.update_self] at hp
      exact h.delivered c p (hdelivered p hp)
    · rw [Function.update_of_ne heq] at hp
      exact h.delivered c' p hp

/-- A step of the worker: what is handed over moves on. -/
theorem Inv.of_worker {s s' : Session α} (h : s.Inv) (hcalls : s'.calls = s.calls)
    (hguard : s'.guard = s.guard) (hpublications : s'.publications = s.publications)
    (hhanded : s'.handedOver = s.handedOver)
    (hdemand : s'.publicationRequested = false →
      s.publicationRequested = false ∧ s'.pendingOrdinal = s.pendingOrdinal) : s'.Inv where
  demand hrequested := by
    obtain ⟨hold, hpending⟩ := hdemand hrequested
    rw [hcalls, hpending]
    exact h.demand hold
  guarded := by
    rw [hcalls, hguard]
    exact h.guarded
  order := hhanded ▸ h.order
  genuine := by
    rw [hhanded, hpublications]
    exact h.genuine
  unhanded := by
    rw [hcalls, hhanded, hpublications]
    exact h.unhanded
  delivered := by
    rw [hcalls, hhanded, hpublications]
    exact h.delivered

theorem Inv.request {s s' : Session α} (h : s.Inv) {c : ℕ} {force : Bool}
    (hstep : s.step (.request c force) = some s') : s'.Inv := by
  simp only [step] at hstep
  split at hstep
  · rename_i hcall
    have hidle : ¬ (s.calls c).Owes := by
      rw [hcall]
      exact id
    split at hstep
    · obtain rfl := Option.some.inj hstep
      exact h.of_call rfl rfl rfl rfl (fun hrequested => .inr ⟨hrequested, hidle⟩)
        (fun c' _ => h.guarded c') (fun hfalse => hfalse.elim) (fun _ hp => by cases hp)
        fun _ hp => by cases hp
    · obtain rfl := Option.some.inj hstep
      exact h.of_call rfl rfl rfl rfl (fun _ => .inl trivial) (fun c' _ => h.guarded c')
        (fun hfalse => hfalse.elim) (fun _ hp => by cases hp) fun _ hp => by cases hp
  · cases hstep

theorem Inv.acquire {s s' : Session α} (h : s.Inv) {c : ℕ}
    (hstep : s.step (.acquire c) = some s') : s'.Inv := by
  simp only [step] at hstep
  split at hstep
  · rename_i hcall hfree
    obtain rfl := Option.some.inj hstep
    refine h.of_call rfl rfl rfl rfl (fun _ => .inl trivial) (fun c' _ hc' => ?_) (fun _ => rfl)
      (fun _ hp => by cases hp) fun _ hp => by cases hp
    -- The guard is free.
    rw [h.guarded c' hc'] at hfree
    cases hfree
  · cases hstep

/-- Under the guard, the new publication comes after all others. -/
theorem Inv.publish {s s' : Session α} (h : s.Inv) {c : ℕ} {ordinal : α}
    (hstep : s.step (.publish c ordinal) = some s') : s'.Inv := by
  simp only [step] at hstep
  split at hstep
  · rename_i hcall
    obtain rfl := Option.some.inj hstep
    have hholds : (s.calls c).HoldsGuard := by
      rw [hcall]
      trivial
    have hlater : ∀ q ∈ s.handedOver, q.index < s.publications.length := by
      intro q hq
      exact (List.getElem?_eq_some_iff.mp (h.genuine q hq)).1
    have hkeep : ∀ i, i < s.publications.length →
        (s.publications ++ [ordinal])[i]? = s.publications[i]? :=
      fun i hi => List.getElem?_append_left hi
    refine ⟨fun _ => .inr ⟨c, ?_⟩, fun c' hc' => ?_, h.order, fun q hq => ?_, fun c' p hp => ?_,
      fun c' p hp => ?_⟩
    · simp [setCall, Call.Owes]
    · by_cases heq : c' = c
      · rw [heq]
        exact h.guarded c hholds
      · exact h.guarded c' (by simpa [setCall, heq] using hc')
    · exact (hkeep q.index (hlater q hq)).trans (h.genuine q hq)
    · by_cases heq : c' = c
      · obtain rfl : ⟨s.publications.length, ordinal⟩ = p := by
          simpa [setCall, heq, Call.unhanded] using hp
        exact ⟨by simp, by simp, hlater⟩
      · -- Another call with a publication would hold the guard too.
        have hp' : (s.calls c').unhanded = some p := by simpa [setCall, heq] using hp
        exact absurd (h.holder_unique (Call.holdsGuard_of_unhanded hp') hholds) heq
    · by_cases heq : c' = c
      · simp [setCall, heq, Call.delivered] at hp
      · have hp' : (s.calls c').delivered = some p := by simpa [setCall, heq] using hp
        rcases h.delivered c' p hp' with hmem | hlt
        · exact .inl hmem
        · exact .inr (by rw [List.length_append]; omega)
  · cases hstep

theorem Inv.note {s s' : Session α} (h : s.Inv) {c : ℕ} (hstep : s.step (.note c) = some s') :
    s'.Inv := by
  simp only [step] at hstep
  split at hstep
  · rename_i p hcall
    obtain rfl := Option.some.inj hstep
    have hguard : s.guard = some c := h.guarded c (by rw [hcall]; trivial)
    exact h.of_call rfl rfl rfl rfl (fun _ => .inl trivial) (fun c' _ => h.guarded c')
      (fun _ => hguard) (fun _ hp => by rw [hcall]; exact hp) fun _ hp => by cases hp
  · cases hstep

/-- The hand-over replaces an ordinal that the worker has not taken. -/
theorem Inv.hand {s s' : Session α} (h : s.Inv) {c : ℕ} (hstep : s.step (.hand c) = some s') :
    s'.Inv := by
  simp only [step] at hstep
  split at hstep
  · rename_i p hcall
    obtain rfl := Option.some.inj hstep
    have hunhanded : (s.calls c).unhanded = some p := by
      rw [hcall]
      rfl
    have hholds := Call.holdsGuard_of_unhanded hunhanded
    obtain ⟨hlast, hgenuine, hbefore⟩ := h.unhanded c p hunhanded
    have hkept : ∀ q ∈ s.rendered ++ s.taken.toList, q ∈ s.handedOver :=
      fun q hq => List.mem_append_left _ hq
    have hhanded : ∀ q ∈ s.rendered ++ s.taken.toList ++ [p], q ∈ s.handedOver ∨ q = p := by
      intro q hq
      rcases List.mem_append.mp hq with hq | hq
      · exact .inl (hkept q hq)
      · exact .inr (List.mem_singleton.mp hq)
    refine ⟨fun _ => .inl (by simp), fun c' hc' => ?_, ?_, fun q hq => ?_, fun c' q hq => ?_,
      fun c' q hq => ?_⟩
    · by_cases heq : c' = c
      · rw [heq]
        exact h.guarded c hholds
      · exact h.guarded c' (by simpa [setCall, heq] using hc')
    · show ((s.rendered ++ s.taken.toList ++ [p]).map Publication.index).Pairwise (· < ·)
      rw [List.map_append, List.pairwise_append]
      refine ⟨?_, List.pairwise_singleton _ _, fun i hi j hj => ?_⟩
      · have horder := h.order
        rw [handedOver, List.map_append] at horder
        exact (List.pairwise_append.mp horder).1
      · obtain ⟨q, hq, rfl⟩ := List.mem_map.mp hi
        obtain rfl : j = p.index := by simpa using hj
        exact hbefore q (hkept q hq)
    · rcases hhanded q hq with hold | rfl
      · exact h.genuine q hold
      · exact hgenuine
    · -- Nothing is published and not handed over any more.
      by_cases heq : c' = c
      · simp [setCall, heq, Call.unhanded] at hq
      · have hq' : (s.calls c').unhanded = some q := by simpa [setCall, heq] using hq
        exact absurd (h.holder_unique (Call.holdsGuard_of_unhanded hq') hholds) heq
    · by_cases heq : c' = c
      · obtain rfl : p = q := by simpa [setCall, heq, Call.delivered] using hq
        exact .inl (List.mem_append_right _ (by simp))
      · have hq' : (s.calls c').delivered = some q := by simpa [setCall, heq] using hq
        rcases h.delivered c' q hq' with hmem | hlt
        · rcases List.mem_append.mp hmem with hmem | _
          · exact .inl (List.mem_append_left _ hmem)
          · have hlt := hbefore q hmem
            exact .inr (by show q.index + 1 < s.publications.length; omega)
        · exact .inr hlt
  · cases hstep

/-- The holder gives the guard back. -/
theorem Inv.release {s : Session α} (h : s.Inv) {c : ℕ} (hholds : (s.calls c).HoldsGuard) (c' : ℕ)
    (hne : c' ≠ c) : ¬ (s.calls c').HoldsGuard :=
  fun hholds' => hne (h.holder_unique hholds' hholds)

theorem Inv.finish {s s' : Session α} (h : s.Inv) {c : ℕ} (hstep : s.step (.finish c) = some s') :
    s'.Inv := by
  simp only [step] at hstep
  split at hstep
  · rename_i p hcall
    obtain rfl := Option.some.inj hstep
    have hholds : (s.calls c).HoldsGuard := by
      rw [hcall]
      trivial
    have hdone : ¬ (s.calls c).Owes := by
      rw [hcall]
      exact id
    exact h.of_call rfl rfl rfl rfl (fun hrequested => .inr ⟨hrequested, hdone⟩)
      (fun c' hne hc' => absurd hc' (h.release hholds c' hne)) (fun hfalse => hfalse.elim)
      (fun _ hq => by cases hq) fun _ hq => by rw [hcall]; exact hq
  · cases hstep

theorem Inv.raise {s s' : Session α} (h : s.Inv) {c : ℕ} (hstep : s.step (.raise c) = some s') :
    s'.Inv := by
  -- Only the guard differs between the phases.
  have hfailing : ∀ guard, (∀ c', c' ≠ c → (s.calls c').HoldsGuard → guard = some c') →
      Inv { s.setCall c .failing with guard := guard } := fun guard hguard =>
    h.of_call rfl rfl rfl rfl (fun _ => .inl trivial) hguard (fun hfalse => hfalse.elim)
      (fun _ hq => by cases hq) fun _ hq => by cases hq
  have hheld : (s.calls c).HoldsGuard → Inv { s.setCall c .failing with guard := none } :=
    fun hholds => hfailing none fun c' hne hc' => absurd hc' (h.release hholds c' hne)
  simp only [step] at hstep
  split at hstep
  · obtain rfl := Option.some.inj hstep
    exact hfailing s.guard fun c' _ => h.guarded c'
  all_goals first
    | cases hstep
      done
    | rename_i hcall
      obtain rfl := Option.some.inj hstep
      exact hheld (by rw [hcall]; trivial)

theorem Inv.fail {s s' : Session α} (h : s.Inv) {c : ℕ} (hstep : s.step (.fail c) = some s') :
    s'.Inv := by
  simp only [step] at hstep
  split at hstep
  · obtain rfl := Option.some.inj hstep
    exact h.of_call rfl rfl rfl rfl (fun hrequested => by cases hrequested)
      (fun c' _ => h.guarded c') (fun hfalse => hfalse.elim) (fun _ hq => by cases hq)
      fun _ hq => by cases hq
  · cases hstep

theorem Inv.take {s s' : Session α} (h : s.Inv) (hstep : s.step .take = some s') : s'.Inv := by
  simp only [step] at hstep
  split at hstep
  · rename_i hfree
    obtain rfl := Option.some.inj hstep
    refine h.of_worker rfl rfl rfl ?_ fun hrequested => ?_
    · simp [handedOver, hfree]
    · simp only [Bool.or_eq_false_iff, Option.isSome_eq_false_iff, Option.isNone_iff_eq_none]
        at hrequested
      exact ⟨hrequested.1, hrequested.2.symm⟩
  · cases hstep

theorem Inv.render {s s' : Session α} (h : s.Inv) (hstep : s.step .render = some s') : s'.Inv := by
  simp only [step] at hstep
  split at hstep
  · rename_i p htaken
    obtain rfl := Option.some.inj hstep
    refine h.of_worker rfl rfl rfl ?_ fun hrequested => ⟨hrequested, rfl⟩
    simp [handedOver, htaken]
  · cases hstep

theorem Inv.step {s s' : Session α} (h : s.Inv) {event : Event α}
    (hstep : s.step event = some s') : s'.Inv := by
  cases event with
  | request c force => exact h.request hstep
  | acquire c => exact h.acquire hstep
  | publish c ordinal => exact h.publish hstep
  | note c => exact h.note hstep
  | hand c => exact h.hand hstep
  | finish c => exact h.finish hstep
  | raise c => exact h.raise hstep
  | fail c => exact h.fail hstep
  | take => exact h.take hstep
  | render => exact h.render hstep

theorem Inv.run {s s' : Session α} (h : s.Inv) {events : List (Event α)}
    (hrun : s.run events = some s') : s'.Inv := by
  induction events generalizing s with
  | nil => exact Option.some.inj hrun ▸ h
  | cons event events ih =>
    obtain ⟨t, hstep, hrest⟩ := Option.bind_eq_some_iff.mp hrun
    exact ih (h.step hstep) hrest

/-! ### All runs -/

theorem inProgress_of_owes {call : Call α} (h : call.Owes) : call.InProgress := by
  cases call <;> trivial

/-- After the worker takes an ordinal, or a request fails, demand is open. -/
theorem open_after {s s' : Session α} {event : Event α} (hstep : s.step event = some s')
    (hevent : (∃ c, event = .fail c) ∨ event = .take ∧ s.pendingOrdinal ≠ none) :
    s'.declines = false := by
  rcases hevent with ⟨c, rfl⟩ | ⟨rfl, hpending⟩
  · simp only [Session.step] at hstep
    split at hstep
    · obtain rfl := Option.some.inj hstep
      simp [declines]
    · cases hstep
  · simp only [Session.step] at hstep
    split at hstep
    · obtain rfl := Option.some.inj hstep
      simp [declines, Option.isSome_iff_ne_none.mpr hpending]
    · cases hstep

/-- The worker renders the ordinal that it finds. -/
theorem take_render {s : Session α} {p : Publication α} (hpending : s.pendingOrdinal = some p)
    (hfree : s.taken = none) :
    ∃ s', s.run [.take, .render] = some s' ∧ s'.rendered = s.rendered ++ [p] := by
  simp [run, Session.step, hfree, hpending]

end Session

/-- **Render demand is never lost.**  While no request is in progress, an ordinary one is declined
only if an ordinal is waiting for the worker; after the worker takes an ordinal, or a publication
fails, ordinary requests are admitted.  The worker renders publications, in their order; and
a returned publication is rendered, taken or waiting, or a later one was published before it could
be taken. -/
theorem render_demand (events : List (Event α)) (s : Session α)
    (hrun : Session.started.run events = some s) :
    ((∀ c, ¬ (s.calls c).InProgress) → s.declines = true → ∃ p, s.pendingOrdinal = some p) ∧
    (∀ event s', s.step event = some s' →
      (∃ c, event = .fail c) ∨ event = .take ∧ s.pendingOrdinal ≠ none → s'.declines = false) ∧
    (s.rendered.map Publication.index).Pairwise (· < ·) ∧
    (∀ p ∈ s.rendered, s.publications[p.index]? = some p.ordinal) ∧
    (∀ c p, s.calls c = .returned p →
      p ∈ s.rendered ∨ s.taken = some p ∨ s.pendingOrdinal = some p ∨
        p.index + 1 < s.publications.length) ∧
    ∀ p, s.pendingOrdinal = some p → s.taken = none →
      ∃ s', s.run [.take, .render] = some s' ∧ s'.rendered = s.rendered ++ [p] := by
  have hinv := Session.inv_started.run hrun
  refine ⟨fun hidle hdeclines => ?_, fun event s' hstep hevent => Session.open_after hstep hevent,
    ?_, fun p hp => ?_, fun c p hcall => ?_, fun p => Session.take_render⟩
  · -- A closed gate is explained by a pending frame, or by a call that is still to open it.
    have hclosed : s.publicationRequested = false := by
      simp only [Session.declines, Bool.and_eq_true, Bool.not_eq_true'] at hdeclines
      exact hdeclines.2
    rcases hinv.demand hclosed with hsome | ⟨c, hc⟩
    · exact Option.ne_none_iff_exists'.mp hsome
    · exact absurd (Session.inProgress_of_owes hc) (hidle c)
  · -- What is rendered stands before what is taken and what is pending.
    have horder := hinv.order
    rw [Session.handedOver, List.append_assoc, List.map_append] at horder
    exact (List.pairwise_append.mp horder).1
  · refine hinv.genuine p ?_
    rw [Session.handedOver, List.append_assoc]
    exact List.mem_append_left _ hp
  · rcases hinv.delivered c p (by rw [hcall]; rfl) with hmem | hlater
    · simp only [Session.handedOver, List.mem_append, Option.mem_toList] at hmem
      rcases hmem with (hmem | hmem) | hmem
      · exact .inl hmem
      · exact .inr (.inl hmem)
      · exact .inr (.inr (.inl hmem))
    · exact .inr (.inr (.inr hlater))

/-- A forced request overlaps the worker and an ordinary one: the second ordinal replaces the
first, and an ordinary request is declined until it is taken. -/
theorem forced_request_overlaps :
    ∃ s : Session ℕ, Session.started.run [.request 0 false, .acquire 0, .publish 0 7, .note 0,
        .request 1 true, .hand 0, .finish 0, .acquire 1, .publish 1 8, .note 1, .hand 1,
        .finish 1] = some s ∧ s.declines = true ∧ ∃ p, s.pendingOrdinal = some p := by
  obtain ⟨hdemand, _⟩ := render_demand [.request 0 false, .acquire 0, .publish 0 7, .note 0,
    .request 1 true, .hand 0, .finish 0, .acquire 1, .publish 1 8, .note 1, .hand 1,
    .finish 1] _ rfl
  refine ⟨_, rfl, rfl, hdemand ?_ rfl⟩
  intro c
  match c with
  | 0 => exact id
  | 1 => exact id
  | _ + 2 => exact id

end RenderDemand
