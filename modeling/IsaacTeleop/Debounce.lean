/-
Debouncing a condition over timed observations.

An alarm is raised once an observed fault has lasted for a delay.  A latch holds the time of
the first observation of the fault; a clear observation resets both latch and alarm, and an
observation may also be missing.

* `Debounce.step`, `Debounce.run` — the latch;
* `Debounce.run_inv` — latch and alarm as functions of the history;
* `Debounce.raised_iff` — when the alarm is raised;
* `Debounce.raised_iff_of_observed` — the same where no observation is missing.
-/
import Mathlib

/-- What one observation says of the fault. -/
inductive Debounce.Verdict
  | clear
  | fault
  | missing
  deriving DecidableEq, Repr

/-- The latch and the alarm. -/
structure Debounce (T : Type) where
  since : Option T
  raised : Bool
  deriving DecidableEq, Repr

namespace Debounce

variable {T : Type} [AddCommGroup T] [LinearOrder T]

/-- At rest: no fault seen. -/
def rest : Debounce T := ⟨none, false⟩

/-- One observation and its time. -/
def step (delay : T) (d : Debounce T) (e : Verdict × T) : Debounce T :=
  match e.1 with
  | .clear => rest
  | .missing => d
  | .fault =>
    match d.since with
    | none => { d with since := some e.2 }
    | some since => if e.2 - since < delay then d else { d with raised := true }

def run (delay : T) (events : List (Verdict × T)) : Debounce T := events.foldl (step delay) rest

/-- No clear observation from position `i` on. -/
def QuietFrom (events : List (Verdict × T)) (i : ℕ) : Prop :=
  ∀ k t, i ≤ k → events[k]? ≠ some (.clear, t)

/-- What latch and alarm say of the history. -/
def Inv (delay : T) (events : List (Verdict × T)) (d : Debounce T) : Prop :=
  match d.since with
  | none => d.raised = false ∧
      ∀ i s, events[i]? = some (.fault, s) → ¬ QuietFrom events i
  | some since => ∃ i, events[i]? = some (.fault, since) ∧ QuietFrom events i ∧
      (∀ i' s, events[i']? = some (.fault, s) → QuietFrom events i' → i ≤ i') ∧
      (d.raised = true ↔ ∃ j t, i ≤ j ∧ events[j]? = some (.fault, t) ∧ delay ≤ t - since)

omit [AddCommGroup T] [LinearOrder T] in
theorem getElem?_snoc {events : List (Verdict × T)} {e e' : Verdict × T} {i : ℕ} :
    (events ++ [e])[i]? = some e' ↔ events[i]? = some e' ∨ (i = events.length ∧ e = e') := by
  rcases lt_trichotomy i events.length with hlt | rfl | hgt
  · rw [List.getElem?_append_left hlt]
    constructor
    · exact Or.inl
    · rintro (h | ⟨rfl, -⟩)
      · exact h
      · omega
  · simp
  · have hnone : events[i]? = none := List.getElem?_eq_none (by omega)
    have hnone' : (events ++ [e])[i]? = none := List.getElem?_eq_none (by simp; omega)
    rw [hnone, hnone']
    constructor
    · intro h
      cases h
    · rintro (h | ⟨rfl, -⟩)
      · cases h
      · omega

omit [AddCommGroup T] [LinearOrder T] in
theorem lt_of_getElem? {events : List (Verdict × T)} {e : Verdict × T} {i : ℕ}
    (h : events[i]? = some e) : i < events.length :=
  (List.getElem?_eq_some_iff.mp h).1

omit [AddCommGroup T] [LinearOrder T] in
theorem quietFrom_snoc {events : List (Verdict × T)} {v : Verdict} {t : T} {i : ℕ}
    (hi : i ≤ events.length) :
    QuietFrom (events ++ [(v, t)]) i ↔ QuietFrom events i ∧ v ≠ .clear := by
  constructor
  · intro h
    refine ⟨fun k u hk hget => h k u hk (getElem?_snoc.mpr (Or.inl hget)), ?_⟩
    rintro rfl
    exact h events.length t hi (getElem?_snoc.mpr (Or.inr ⟨rfl, rfl⟩))
  · rintro ⟨hquiet, hv⟩ k u hk hget
    rcases getElem?_snoc.mp hget with hget | ⟨-, heq⟩
    · exact hquiet k u hk hget
    · exact hv (congrArg Prod.fst heq)

omit [AddCommGroup T] [LinearOrder T] in
/-- A list is quiet from its end on. -/
theorem quietFrom_length (events : List (Verdict × T)) : QuietFrom events events.length := by
  intro k t hk hget
  have := lt_of_getElem? hget
  omega

/-! ### The invariant -/

section Steps

variable {delay : T} {events : List (Verdict × T)} {d : Debounce T}

theorem inv_clear (t : T) : Inv delay (events ++ [(.clear, t)]) (rest : Debounce T) := by
  refine ⟨rfl, fun i s hget hquiet => ?_⟩
  rcases getElem?_snoc.mp hget with hget | ⟨-, heq⟩
  · exact ((quietFrom_snoc (lt_of_getElem? hget).le).mp hquiet).2 rfl
  · cases heq

theorem inv_missing (h : Inv delay events d) (t : T) :
    Inv delay (events ++ [(.missing, t)]) d := by
  -- A missing verdict adds neither a fault nor a clear.
  have hfault : ∀ (i : ℕ) (s : T), (events ++ [(Verdict.missing, t)])[i]? = some (.fault, s) ↔
      events[i]? = some (.fault, s) := by
    intro i s
    rw [getElem?_snoc]
    constructor
    · rintro (hget | ⟨-, heq⟩)
      · exact hget
      · cases heq
    · exact Or.inl
  have hquiet : ∀ i, i ≤ events.length →
      (QuietFrom (events ++ [(Verdict.missing, t)]) i ↔ QuietFrom events i) := by
    intro i hi
    rw [quietFrom_snoc hi]
    exact ⟨And.left, fun hq => ⟨hq, by decide⟩⟩
  cases d with
  | mk since raised =>
    cases since with
    | none =>
      refine ⟨h.1, fun i s hget hq => ?_⟩
      have hget' := (hfault i s).mp hget
      exact h.2 i s hget' ((hquiet i (lt_of_getElem? hget').le).mp hq)
    | some since =>
      obtain ⟨i, hget, hq, hfirst, hraised⟩ := h
      have hi := (lt_of_getElem? hget).le
      refine ⟨i, (hfault i since).mpr hget, (hquiet i hi).mpr hq, ?_, ?_⟩
      · intro i' s hget' hq'
        have hold := (hfault i' s).mp hget'
        exact hfirst i' s hold ((hquiet i' (lt_of_getElem? hold).le).mp hq')
      · simp only [hfault]
        exact hraised

/-- The first fault after rest starts the latch. -/
theorem inv_first (hdelay : 0 < delay) (h : Inv delay events ⟨none, false⟩) (t : T) :
    Inv delay (events ++ [(.fault, t)]) ⟨some t, false⟩ := by
  refine ⟨events.length, getElem?_snoc.mpr (Or.inr ⟨rfl, rfl⟩),
    (quietFrom_snoc le_rfl).mpr ⟨quietFrom_length events, by decide⟩, ?_, ?_⟩
  · intro i s hget hquiet
    rcases getElem?_snoc.mp hget with hget | ⟨rfl, -⟩
    · have hi := (lt_of_getElem? hget).le
      exact absurd ((quietFrom_snoc hi).mp hquiet).1 (h.2 i s hget)
    · exact le_rfl
  · constructor
    · intro hfalse
      cases hfalse
    · rintro ⟨j, u, hj, hget, hlong⟩
      rcases getElem?_snoc.mp hget with hget | ⟨-, heq⟩
      · have := lt_of_getElem? hget
        omega
      · -- the only fault is this one, and no time has passed
        cases heq
        rw [sub_self] at hlong
        exact absurd hlong (not_le.mpr hdelay)

/-- A further fault raises the alarm if the delay has passed. -/
theorem inv_again {since : T} {raised : Bool} (h : Inv delay events ⟨some since, raised⟩) (t : T) :
    Inv delay (events ++ [(.fault, t)])
      (if t - since < delay then ⟨some since, raised⟩ else ⟨some since, true⟩) := by
  obtain ⟨i, hget, hquiet, hfirst, hraised⟩ := h
  have hi := (lt_of_getElem? hget).le
  have hget' : (events ++ [(Verdict.fault, t)])[i]? = some (.fault, since) :=
    getElem?_snoc.mpr (Or.inl hget)
  have hquiet' : QuietFrom (events ++ [(Verdict.fault, t)]) i :=
    (quietFrom_snoc hi).mpr ⟨hquiet, by decide⟩
  -- The first fault of the quiet stretch stays the first one.
  have hfirst' : ∀ i' s, (events ++ [(Verdict.fault, t)])[i']? = some (.fault, s) →
      QuietFrom (events ++ [(Verdict.fault, t)]) i' → i ≤ i' := by
    intro i' s hgets hquiets
    rcases getElem?_snoc.mp hgets with hgets | ⟨rfl, -⟩
    · exact hfirst i' s hgets ((quietFrom_snoc (lt_of_getElem? hgets).le).mp hquiets).1
    · exact hi
  by_cases hlt : t - since < delay
  · rw [if_pos hlt]
    refine ⟨i, hget', hquiet', hfirst', hraised.trans ?_⟩
    constructor
    · rintro ⟨j, u, hj, hgetj, hlong⟩
      exact ⟨j, u, hj, getElem?_snoc.mpr (Or.inl hgetj), hlong⟩
    · rintro ⟨j, u, hj, hgetj, hlong⟩
      rcases getElem?_snoc.mp hgetj with hgetj | ⟨-, heq⟩
      · exact ⟨j, u, hj, hgetj, hlong⟩
      · cases heq
        exact absurd hlong (not_le.mpr hlt)
  · rw [if_neg hlt]
    refine ⟨i, hget', hquiet', hfirst', ?_⟩
    constructor
    · intro _
      exact ⟨events.length, t, hi, getElem?_snoc.mpr (Or.inr ⟨rfl, rfl⟩), not_lt.mp hlt⟩
    · intro _
      rfl

/-- **One observation keeps the invariant.** -/
theorem inv_step (hdelay : 0 < delay) (h : Inv delay events d) (e : Verdict × T) :
    Inv delay (events ++ [e]) (step delay d e) := by
  obtain ⟨v, t⟩ := e
  cases v with
  | clear => exact inv_clear t
  | missing => exact inv_missing h t
  | fault =>
    obtain ⟨since, raised⟩ := d
    cases since with
    | none =>
      obtain rfl : raised = false := h.1
      exact inv_first hdelay h t
    | some since => exact inv_again h t

end Steps

/-- **The invariant holds of every run.** -/
theorem run_inv {delay : T} (hdelay : 0 < delay) (events : List (Verdict × T)) :
    Inv delay events (run delay events) := by
  induction events using List.reverseRecOn with
  | nil => exact ⟨rfl, fun i s hget => (by cases hget)⟩
  | append_singleton events e ih =>
    rw [run, List.foldl_append]
    exact inv_step hdelay ih e

/-! ### The alarm -/

section Alarm

variable [IsOrderedAddMonoid T] {delay : T} {events : List (Verdict × T)}

omit [AddCommGroup T] [IsOrderedAddMonoid T] in
theorem time_le (hmono : (events.map Prod.snd).Pairwise (· ≤ ·)) {i j : ℕ} {v w : Verdict}
    {s t : T} (hij : i ≤ j) (hi : events[i]? = some (v, s)) (hj : events[j]? = some (w, t)) :
    s ≤ t := by
  rcases hij.eq_or_lt with rfl | hlt
  · have := Option.some.inj (hi.symm.trans hj)
    cases this
    exact le_rfl
  · have hj' : j < (events.map Prod.snd).length := by
      rw [List.length_map]
      exact lt_of_getElem? hj
    have hle := List.pairwise_iff_getElem.mp hmono i j (by omega) hj' hlt
    obtain ⟨hi₁, hi₂⟩ := List.getElem?_eq_some_iff.mp hi
    obtain ⟨hj₁, hj₂⟩ := List.getElem?_eq_some_iff.mp hj
    simpa only [List.getElem_map, hi₂, hj₂] using hle

/-- **When the alarm is raised**: two observations of the fault lie the delay apart, and
nothing since the first of them was clear. -/
theorem raised_iff (hdelay : 0 < delay) (hmono : (events.map Prod.snd).Pairwise (· ≤ ·)) :
    (run delay events).raised = true ↔
      ∃ i j s t, i ≤ j ∧ events[i]? = some (.fault, s) ∧ events[j]? = some (.fault, t) ∧
        delay ≤ t - s ∧ QuietFrom events i := by
  have hinv := run_inv hdelay events
  cases hrun : run delay events with
  | mk since raised =>
    rw [hrun] at hinv
    cases since with
    | none =>
      constructor
      · intro hraised
        rw [show raised = false from hinv.1] at hraised
        cases hraised
      · rintro ⟨i, j, s, t, -, hi, -, -, hquiet⟩
        exact absurd hquiet (hinv.2 i s hi)
    | some since =>
      obtain ⟨i, hget, hquiet, hfirst, hraised⟩ := hinv
      refine hraised.trans ⟨?_, ?_⟩
      · rintro ⟨j, t, hij, hj, hlong⟩
        exact ⟨i, j, since, t, hij, hget, hj, hlong, hquiet⟩
      · -- the latch is at least as old as any fault of the stretch
        rintro ⟨i', j, s, t, hij, hi', hj, hlong, hquiet'⟩
        have hle := hfirst i' s hi' hquiet'
        have hs : since ≤ s := time_le hmono hle hget hi'
        exact ⟨j, t, hle.trans hij, hj, hlong.trans (sub_le_sub_left hs t)⟩

/-- **Where no observation is missing**, the fault was observed at every position from one
the delay before the last. -/
theorem raised_iff_of_observed (hdelay : 0 < delay)
    (hmono : (events.map Prod.snd).Pairwise (· ≤ ·))
    (hobserved : ∀ e ∈ events, e.1 ≠ .missing) {k : ℕ} {v : Verdict} {now : T}
    (hlast : events[k]? = some (v, now)) (hlength : events.length = k + 1) :
    (run delay events).raised = true ↔
      ∃ j s, j ≤ k ∧ events[j]? = some (.fault, s) ∧ delay ≤ now - s ∧
        ∀ m, j ≤ m → m ≤ k → ∃ t, events[m]? = some (.fault, t) := by
  -- Where nothing is missing, quiet means fault after fault.
  have hfault : ∀ {i m : ℕ}, QuietFrom events i → i ≤ m → m ≤ k →
      ∃ t, events[m]? = some (.fault, t) := by
    intro i m hquiet him hmk
    have hm : m < events.length := by omega
    cases he : events[m] with
    | mk w t =>
      have hget : events[m]? = some (w, t) := by rw [List.getElem?_eq_getElem hm, he]
      cases w with
      | clear => exact absurd hget (hquiet m t him)
      | missing => exact absurd rfl (hobserved _ (List.mem_of_getElem? hget))
      | fault => exact ⟨t, hget⟩
  rw [raised_iff hdelay hmono]
  constructor
  · rintro ⟨i, j, s, t, hij, hi, hj, hlong, hquiet⟩
    have hjk : j ≤ k := by
      have := lt_of_getElem? hj
      omega
    have hle : t ≤ now := time_le hmono hjk hj hlast
    exact ⟨i, s, hij.trans hjk, hi, hlong.trans (sub_le_sub_right hle s),
      fun m him hmk => hfault hquiet him hmk⟩
  · rintro ⟨j, s, hjk, hj, hlong, hall⟩
    obtain ⟨t, hk⟩ := hall k hjk le_rfl
    obtain ⟨-, rfl⟩ := Prod.mk.inj (Option.some.inj (hk.symm.trans hlast))
    refine ⟨j, k, s, t, hjk, hj, hk, hlong, fun m u hjm hget => ?_⟩
    have hmk : m ≤ k := by
      have := lt_of_getElem? hget
      omega
    obtain ⟨t', hm⟩ := hall m hjm hmk
    rw [hm] at hget
    cases hget

end Alarm

end Debounce
