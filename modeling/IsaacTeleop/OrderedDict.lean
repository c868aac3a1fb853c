/-
Insertion-ordered dictionaries.

A dictionary is a list of entries with pairwise distinct keys, in the order in
which the keys were first inserted.  Overwriting a key keeps its position.

* `OrderedDict.get?_insert` — lookup after an update;
* `OrderedDict.mem_keys` — a key is present iff its lookup succeeds;
* `OrderedDict.get?_filterKeys` — lookup in a dictionary restricted to keys.
-/
import Mathlib

/-- Entries with pairwise distinct keys, oldest key first. -/
structure OrderedDict (κ α : Type) where
  entries : List (κ × α)
  nodup : (entries.map Prod.fst).Nodup

namespace OrderedDict

variable {κ α : Type}

def keys (d : OrderedDict κ α) : List κ := d.entries.map Prod.fst

def empty : OrderedDict κ α := ⟨[], List.nodup_nil⟩

instance : EmptyCollection (OrderedDict κ α) := ⟨empty⟩

instance : Inhabited (OrderedDict κ α) := ⟨empty⟩

@[simp] theorem keys_empty : (∅ : OrderedDict κ α).keys = [] := rfl

@[simp] theorem entries_empty : (∅ : OrderedDict κ α).entries = [] := rfl

theorem ext {d d' : OrderedDict κ α} (h : d.entries = d'.entries) : d = d' := by
  cases d
  cases d'
  cases h
  rfl

theorem nodup_append_new (d : OrderedDict κ α) {k : κ} (v : α) (h : k ∉ d.keys) :
    ((d.entries ++ [(k, v)]).map Prod.fst).Nodup := by
  rw [List.map_append, List.nodup_append]
  refine ⟨d.nodup, by simp, fun a ha b hb => ?_⟩
  obtain rfl : b = k := by simpa using hb
  rintro rfl
  exact h ha

/-- Keep the entries whose key satisfies `p`. -/
def filterKeys (d : OrderedDict κ α) (p : κ → Bool) : OrderedDict κ α :=
  ⟨d.entries.filter fun e => p e.1, d.nodup.sublist (List.filter_sublist.map _)⟩

variable [DecidableEq κ]

def get? (d : OrderedDict κ α) (k : κ) : Option α := d.entries.lookup k

/-- Give every entry of key `k` the value `v`, in place. -/
def overwrite (l : List (κ × α)) (k : κ) (v : α) : List (κ × α) :=
  l.map fun e => if e.1 = k then (k, v) else e

theorem map_fst_overwrite (l : List (κ × α)) (k : κ) (v : α) :
    (overwrite l k v).map Prod.fst = l.map Prod.fst := by
  rw [overwrite, List.map_map]
  refine List.map_congr_left fun e _ => ?_
  show (if e.1 = k then (k, v) else e).1 = e.1
  split
  case isTrue h => exact h.symm
  case isFalse => rfl

/-- `d[k] = v`: overwrite in place, or append a new key. -/
def insert (d : OrderedDict κ α) (k : κ) (v : α) : OrderedDict κ α :=
  if h : k ∈ d.keys then
    ⟨overwrite d.entries k v, (map_fst_overwrite d.entries k v).symm ▸ d.nodup⟩
  else ⟨d.entries ++ [(k, v)], d.nodup_append_new v h⟩

@[simp] theorem get?_empty (k : κ) : (∅ : OrderedDict κ α).get? k = none := rfl

/-! ### Association lists -/

theorem lookup_cons_self (l : List (κ × α)) (k : κ) (v : α) :
    ((k, v) :: l).lookup k = some v := by
  rw [List.lookup, beq_self_eq_true]

theorem lookup_cons_ne (l : List (κ × α)) {k k' : κ} (v : α) (h : k ≠ k') :
    ((k', v) :: l).lookup k = l.lookup k := by
  have hbeq : (k == k') = false := by simpa using h
  rw [List.lookup, hbeq]

theorem mem_map_fst_iff (l : List (κ × α)) (k : κ) :
    k ∈ l.map Prod.fst ↔ ∃ v, l.lookup k = some v := by
  induction l with
  | nil => simp
  | cons e rest ih =>
    obtain ⟨k', v'⟩ := e
    by_cases hk : k = k'
    · subst hk
      simp
    · simp [lookup_cons_ne rest v' hk, hk, ← ih]

theorem lookup_of_mem {l : List (κ × α)} (hnodup : (l.map Prod.fst).Nodup) {k : κ} {v : α}
    (h : (k, v) ∈ l) : l.lookup k = some v := by
  induction l with
  | nil => cases h
  | cons e rest ih =>
    obtain ⟨k', v'⟩ := e
    rw [List.map_cons, List.nodup_cons] at hnodup
    rcases List.mem_cons.mp h with heq | hmem
    · cases heq
      exact lookup_cons_self rest k v
    · have hne : k ≠ k' := by
        intro heq
        exact hnodup.1 (List.mem_map.mpr ⟨(k, v), hmem, heq⟩)
      rw [lookup_cons_ne rest v' hne]
      exact ih hnodup.2 hmem

theorem lookup_overwrite (l : List (κ × α)) (k k' : κ) (v : α) (h : k ∈ l.map Prod.fst) :
    (overwrite l k v).lookup k' = if k' = k then some v else l.lookup k' := by
  by_cases hk : k' = k
  · subst hk
    rw [if_pos rfl]
    induction l with
    | nil => cases h
    | cons e rest ih =>
      obtain ⟨k₁, v₁⟩ := e
      by_cases hk₁ : k₁ = k'
      · simp [overwrite, hk₁]
      · have hr : k' ∈ rest.map Prod.fst := by
          simpa [Ne.symm hk₁] using h
        have hcons : overwrite ((k₁, v₁) :: rest) k' v = (k₁, v₁) :: overwrite rest k' v := by
          simp [overwrite, hk₁]
        rw [hcons, lookup_cons_ne _ v₁ (Ne.symm hk₁)]
        exact ih hr
  · -- the keys other than `k` keep their entries, whether or not `k` is present
    rw [if_neg hk]
    clear h
    induction l with
    | nil => rfl
    | cons e rest ih =>
      obtain ⟨k₁, v₁⟩ := e
      by_cases hk₁ : k₁ = k
      · have hcons : overwrite ((k₁, v₁) :: rest) k v = (k, v) :: overwrite rest k v := by
          simp [overwrite, hk₁]
        rw [hcons, lookup_cons_ne _ v hk, ih, lookup_cons_ne rest v₁ (hk₁ ▸ hk)]
      · have hcons : overwrite ((k₁, v₁) :: rest) k v = (k₁, v₁) :: overwrite rest k v := by
          simp [overwrite, hk₁]
        rw [hcons]
        by_cases hk' : k' = k₁
        · subst hk'
          rw [lookup_cons_self, lookup_cons_self]
        · rw [lookup_cons_ne _ v₁ hk', lookup_cons_ne _ v₁ hk', ih]

theorem lookup_filter (l : List (κ × α)) (p : κ → Bool) (k : κ) :
    (l.filter fun e => p e.1).lookup k = if p k then l.lookup k else none := by
  induction l with
  | nil => simp
  | cons e rest ih =>
    obtain ⟨k', v'⟩ := e
    by_cases hp : p k' = true
    · rw [List.filter_cons, if_pos hp]
      by_cases hk : k = k'
      · subst hk
        rw [lookup_cons_self, lookup_cons_self, if_pos hp]
      · rw [lookup_cons_ne _ v' hk, lookup_cons_ne _ v' hk, ih]
    · rw [List.filter_cons, if_neg hp, ih]
      by_cases hk : k = k'
      · subst hk
        rw [if_neg hp, if_neg hp]
      · rw [lookup_cons_ne _ v' hk]

/-! ### Lookup -/

/-- A key is present iff its lookup succeeds. -/
theorem mem_keys {d : OrderedDict κ α} {k : κ} : k ∈ d.keys ↔ ∃ v, d.get? k = some v :=
  mem_map_fst_iff d.entries k

theorem get?_eq_none {d : OrderedDict κ α} {k : κ} : d.get? k = none ↔ k ∉ d.keys := by
  rw [mem_keys]
  cases d.get? k <;> simp

/-- An entry is found under its key. -/
theorem get?_of_mem {d : OrderedDict κ α} {k : κ} {v : α} (h : (k, v) ∈ d.entries) :
    d.get? k = some v :=
  lookup_of_mem d.nodup h

theorem mem_of_get? {d : OrderedDict κ α} {k : κ} {v : α} (h : d.get? k = some v) :
    (k, v) ∈ d.entries := by
  obtain ⟨⟨k', v'⟩, hmem, hk⟩ := List.mem_map.mp (mem_keys.mpr ⟨v, h⟩)
  obtain rfl : k' = k := hk
  have hv := get?_of_mem hmem
  rw [h, Option.some_inj] at hv
  exact hv ▸ hmem

/-- **Lookup after an update.** -/
theorem get?_insert (d : OrderedDict κ α) (k k' : κ) (v : α) :
    (d.insert k v).get? k' = if k' = k then some v else d.get? k' := by
  rw [insert]
  split
  case isTrue h => exact lookup_overwrite d.entries k k' v h
  case isFalse h =>
    show List.lookup k' (d.entries ++ [(k, v)]) = _
    rw [List.lookup_append]
    by_cases hk : k' = k
    · subst hk
      have hnone : List.lookup k' d.entries = none := get?_eq_none.mpr h
      rw [hnone, if_pos rfl, lookup_cons_self, Option.none_or]
    · rw [lookup_cons_ne [] v hk, if_neg hk, List.lookup_nil, Option.or_none, get?]

theorem mem_keys_insert {d : OrderedDict κ α} {k k' : κ} {v : α} :
    k' ∈ (d.insert k v).keys ↔ k' = k ∨ k' ∈ d.keys := by
  rw [mem_keys, mem_keys, get?_insert]
  by_cases hk : k' = k
  · simp [hk]
  · simp [hk]

/-- Lookup in a dictionary restricted to the keys satisfying `p`. -/
theorem get?_filterKeys (d : OrderedDict κ α) (p : κ → Bool) (k : κ) :
    (d.filterKeys p).get? k = if p k then d.get? k else none :=
  lookup_filter d.entries p k

/-! ### Dictionaries filled from a list -/

section Fill

variable {β : Type} (key : β → κ) (val : β → α)

/-- What a filled dictionary holds was there before or comes from the list. -/
theorem get?_foldl_insert {l : List β} {d : OrderedDict κ α} {k : κ} {v : α}
    (h : (l.foldl (fun d b => d.insert (key b) (val b)) d).get? k = some v) :
    d.get? k = some v ∨ ∃ b ∈ l, key b = k ∧ val b = v := by
  induction l generalizing d with
  | nil => exact Or.inl h
  | cons b rest ih =>
    rcases ih h with hold | ⟨b', hmem, hb'⟩
    · rw [get?_insert] at hold
      by_cases hk : k = key b
      · rw [if_pos hk, Option.some_inj] at hold
        exact Or.inr ⟨b, List.mem_cons_self, hk.symm, hold⟩
      · rw [if_neg hk] at hold
        exact Or.inl hold
    · exact Or.inr ⟨b', List.mem_cons_of_mem _ hmem, hb'⟩

/-- A member of a list with distinct keys is found under its key. -/
theorem get?_foldl_insert_of_mem {l : List β} (hnodup : (l.map key).Nodup) {b : β} (hb : b ∈ l)
    (d : OrderedDict κ α) :
    (l.foldl (fun d b => d.insert (key b) (val b)) d).get? (key b) = some (val b) := by
  induction l generalizing d with
  | nil => cases hb
  | cons b' rest ih =>
    rw [List.map_cons, List.nodup_cons] at hnodup
    rcases List.mem_cons.mp hb with rfl | hmem
    · -- later keys differ, so the entry of the head stays
      have hstay : ∀ (l : List β) (d : OrderedDict κ α), key b ∉ l.map key →
          d.get? (key b) = some (val b) →
          (l.foldl (fun d b => d.insert (key b) (val b)) d).get? (key b) = some (val b) := by
        intro l
        induction l with
        | nil => exact fun _ _ hd => hd
        | cons c rest ih =>
          intro d hnot hd
          rw [List.map_cons, List.mem_cons, not_or] at hnot
          refine ih _ hnot.2 ?_
          rw [get?_insert, if_neg hnot.1]
          exact hd
      refine hstay rest _ hnodup.1 ?_
      rw [get?_insert, if_pos rfl]
    · exact ih hnodup.2 hmem _

/-- Filled from a list with distinct keys, a dictionary looks up like the list. -/
theorem get?_index {key : α → κ} {l : List α} (hnodup : (l.map key).Nodup) (k : κ) :
    (l.foldl (fun d a => d.insert (key a) a) (∅ : OrderedDict κ α)).get? k
      = l.find? fun a => key a = k := by
  cases hfind : l.find? fun a => key a = k with
  | none =>
    rw [List.find?_eq_none] at hfind
    rw [Option.eq_none_iff_forall_not_mem]
    intro v hv
    rcases get?_foldl_insert key (fun a => a) hv with hempty | ⟨a, ha, hk, -⟩
    · cases hempty
    · exact hfind a ha (by simpa using hk)
  | some a =>
    have hk : key a = k := by simpa using List.find?_some hfind
    rw [← hk]
    exact get?_foldl_insert_of_mem key (fun a => a) hnodup (List.mem_of_find?_eq_some hfind) ∅

end Fill

end OrderedDict
