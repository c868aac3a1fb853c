/-
The image mailbox of the viz layers.

One producer thread runs `submit` and one renderer thread runs `promote_slot` (or
`acquire_direct_views` of a projection layer).  They share `latest_` and the entries of
`in_use_`, and every step below makes at most one atomic load or store of them.

The renderer loads `latest_` and stores it into `in_use_` in two steps.  If the producer
publishes in between, it no longer sees the loaded slot anywhere and may pick it again.

* `step`, `run` — the interleavings of the two threads, with the GPU finishing frames;
* `Mailbox.Inv` — the invariant of the runs in which no stale slot is promoted;
* `mailbox_safe` — what holds along these runs.
-/
import Mathlib

namespace ImageMailbox

def kMaxFramesInFlight : ℕ := 5
def kSlotCount : ℕ := kMaxFramesInFlight + 2

/-- A mailbox slot; `kSlotNone` is `none` of `Option Slot`. -/
abbrev Slot := Fin kSlotCount

/-- An in-flight index. -/
abbrev Frame := Fin kMaxFramesInFlight

/-- Image layers promote with `promote_slot`, projection layers with `acquire_direct_views`. -/
inductive Layer
  | image
  | projection (xrMode : Bool)
  deriving DecidableEq, Repr

/-- Where `submit` stands. -/
inductive Producer
  | idle
  | started
  /-- `pick_free_slot` is about to test candidate `i` against entry `k` of `in_use_`. -/
  | scanning (latest : Option Slot) (i k : ℕ)
  | copying (slot : Slot)
  /-- The stream is synchronized. -/
  | copied (slot : Slot)
  | published
  deriving DecidableEq, Repr

/-- Where the promotion of a frame stands. -/
inductive Renderer
  | idle
  | loading (frame : Frame)
  | loaded (frame : Frame) (latest : Option Slot)
  /-- About to store the slot into `in_use_`. -/
  | taking (frame : Frame) (slot : Slot)
  | skipping (frame : Frame)
  /-- About to load `in_use_` again, as `promote_slot` does. -/
  | reading (frame : Frame)
  /-- About to store `last_in_use_slot_` and to return. -/
  | recording (frame : Frame) (cur : Option Slot)
  deriving DecidableEq, Repr

structure Mailbox where
  latest : Option Slot
  inUse : Frame → Option Slot
  lastInUseSlot : Option Slot
  submittedThisFrame : Bool
  producer : Producer
  renderer : Renderer
  /-- The slot that the unfinished frame of an index was given. -/
  frames : Frame → Option Slot
  /-- The number of the completed publish a slot holds; `none` while it is written. -/
  content : Slot → Option ℕ
  publishes : ℕ
  /-- The publishes that the frames were given, in order. -/
  given : List (Option ℕ)

/-- The slot a `submit` is writing. -/
def Producer.writing : Producer → Option Slot
  | .copying slot | .copied slot => some slot
  | _ => none

/-- The frame being promoted. -/
def Renderer.frame : Renderer → Option Frame
  | .idle => none
  | .loading frame | .loaded frame _ | .taking frame _ | .skipping frame | .reading frame
  | .recording frame _ => some frame

/-- A layer as constructed. -/
def Mailbox.init : Mailbox where
  latest := none
  inUse _ := none
  lastInUseSlot := none
  submittedThisFrame := false
  producer := .idle
  renderer := .idle
  frames _ := none
  content _ := none
  publishes := 0
  given := []

/-! ### The threads -/

/-- One round of `pick_free_slot`: skip `latest`, load one entry, or pick the candidate.  A scan
that runs out of candidates drops the publish. -/
def scan (latest : Option Slot) (i k : ℕ) (s : Mailbox) : Mailbox :=
  if hi : i < kSlotCount then
    if latest = some ⟨i, hi⟩ then { s with producer := .scanning latest (i + 1) 0 }
    else if hk : k < kMaxFramesInFlight then
      if s.inUse ⟨k, hk⟩ = some ⟨i, hi⟩ then { s with producer := .scanning latest (i + 1) 0 }
      else { s with producer := .scanning latest i (k + 1) }
    else { s with producer := .copying ⟨i, hi⟩
                  content := Function.update s.content ⟨i, hi⟩ none }
  else { s with producer := .idle }

/-- The next step of a running `submit`. -/
def producerStep (layer : Layer) (s : Mailbox) : Option Mailbox :=
  match s.producer with
  | .idle => none
  | .started => some { s with producer := .scanning s.latest 0 0 }
  | .scanning latest i k => some (scan latest i k s)
  | .copying slot => some { s with producer := .copied slot }
  | .copied slot => some
    { s with
      latest := some slot
      producer := if layer = .image then .idle else .published
      content := Function.update s.content slot (some (s.publishes + 1))
      publishes := s.publishes + 1 }
  | .published => some { s with submittedThisFrame := true, producer := .idle }

/-- What the renderer does with the slot it has loaded. -/
def Layer.decide (layer : Layer) (submittedThisFrame : Bool) (frame : Frame) :
    Option Slot → Renderer
  | none => if layer = .image then .reading frame else .skipping frame
  | some slot => if layer = .projection true ∧ submittedThisFrame = false then .skipping frame
      else .taking frame slot

/-- The next step of a running promotion. -/
def rendererStep (layer : Layer) (s : Mailbox) : Option Mailbox :=
  match s.renderer with
  | .idle => none
  | .loading frame => some { s with renderer := .loaded frame s.latest }
  | .loaded frame latest =>
    some { s with renderer := layer.decide s.submittedThisFrame frame latest }
  | .taking frame slot => some
    { s with
      inUse := Function.update s.inUse frame (some slot)
      renderer := if layer = .image then .reading frame else .recording frame (some slot) }
  | .skipping frame => some
    { s with
      inUse := Function.update s.inUse frame none
      renderer := .recording frame none }
  | .reading frame => some { s with renderer := .recording frame (s.inUse frame) }
  | .recording frame cur => some
    { s with
      lastInUseSlot := if layer = .image ∧ cur = none then s.lastInUseSlot else cur
      renderer := .idle
      frames := Function.update s.frames frame cur
      given := s.given ++ (cur.map s.content).toList }

/-- What happens next. -/
inductive Event
  /-- A `submit` whose arguments are accepted. -/
  | submit
  | producer
  /-- A CUDA call of the copy fails and `submit` throws. -/
  | copyFailed
  | promote (frame : Frame)
  | renderer
  /-- The GPU has finished the frame. -/
  | finished (frame : Frame)
  | frameBegin
  deriving DecidableEq, Repr

/-- One event; an index is promoted again only after the GPU finished its last frame. -/
def step (layer : Layer) (s : Mailbox) : Event → Option Mailbox
  | .submit => if s.producer = .idle then some { s with producer := .started } else none
  | .producer => producerStep layer s
  | .copyFailed =>
    match s.producer with
    | .copying _ => some { s with producer := .idle }
    | _ => none
  | .promote frame =>
    if s.renderer = .idle ∧ s.frames frame = none then
      some { s with renderer := .loading frame }
    else none
  | .renderer => rendererStep layer s
  | .finished frame => some { s with frames := Function.update s.frames frame none }
  | .frameBegin => some { s with submittedThisFrame := false }

def run (layer : Layer) : Mailbox → List Event → Option Mailbox
  | s, [] => some s
  | s, e :: rest => (step layer s e).bind fun s' => run layer s' rest

/-! ### The invariant -/

/-- The promotion stores the slot it loaded while that is still the latest publish. -/
def Prompt (s : Mailbox) (e : Event) : Prop :=
  e = .renderer → ∀ frame slot, s.renderer = .taking frame slot → s.latest = some slot

/-- What a running `pick_free_slot` has established: the candidate is in none of the entries
tested, and every candidate it has passed was the latest or in use when it began. -/
structure ScanOk (s : Mailbox) (latest : Option Slot) (i k : ℕ) : Prop where
  latest_eq : latest = s.latest
  tested : ∀ (slot : Slot) (frame : Frame), slot.val = i → frame.val < k →
    s.latest ≠ some slot → s.inUse frame ≠ some slot
  rejected : ∃ start : Frame → Option Slot,
    (∀ frame, s.inUse frame = start frame ∨ s.inUse frame = s.latest ∨ s.inUse frame = none) ∧
    ∀ slot : Slot, slot.val < i → s.latest = some slot ∨ ∃ frame, start frame = some slot

/-- The slot holds a completed publish, none older than those already given. -/
def Newest (s : Mailbox) (slot : Slot) : Prop :=
  ∃ n, s.content slot = some n ∧ n ≤ s.publishes ∧ ∀ m, some m ∈ s.given → m ≤ n

/-- The invariant of the runs in which no stale slot is promoted. -/
structure Mailbox.Inv (s : Mailbox) : Prop where
  latest : ∀ slot, s.latest = some slot → s.content slot = some s.publishes
  unpublished : s.latest = none → ∀ frame, s.inUse frame = none
  inUse : ∀ frame slot, s.inUse frame = some slot → s.content slot ≠ none
  writing : ∀ slot, s.producer.writing = some slot →
    s.latest ≠ some slot ∧ ∀ frame, s.inUse frame ≠ some slot
  scanning : ∀ latest i k, s.producer = .scanning latest i k → ScanOk s latest i k
  frames : ∀ frame slot, s.frames frame = some slot → s.inUse frame = some slot
  promoting : ∀ frame, s.renderer.frame = some frame → s.frames frame = none
  loaded : ∀ frame, s.renderer = .loaded frame none → ∀ other, s.inUse other = none
  reading : ∀ frame slot, s.renderer = .reading frame → s.inUse frame = some slot →
    Newest s slot
  recording : ∀ frame cur, s.renderer = .recording frame cur → s.inUse frame = cur ∧
    ∀ slot, cur = some slot → Newest s slot
  complete : ∀ g ∈ s.given, ∃ n, g = some n ∧ n ≤ s.publishes
  ordered : s.given.Pairwise fun g g' => ∀ m n, g = some m → g' = some n → m ≤ n

/-- Some slot is not among as many values as there are frames, and one more. -/
theorem exists_slot_ne (f : Option Frame → Option Slot) : ∃ slot, ∀ x, f x ≠ some slot := by
  by_contra hnone
  push Not at hnone
  choose index hindex using hnone
  have hinj : Function.Injective index := by
    intro a b hab
    have : some a = some b := by rw [← hindex a, ← hindex b, hab]
    exact Option.some.inj this
  have hcard := Fintype.card_le_of_injective index hinj
  rw [Fintype.card_option, Fintype.card_fin, Fintype.card_fin, kSlotCount] at hcard
  omega

/-- **A running scan does not run out of candidates.** -/
theorem ScanOk.lt {s : Mailbox} {latest : Option Slot} {i k : ℕ} (h : ScanOk s latest i k) :
    i < kSlotCount := by
  by_contra hge
  obtain ⟨start, -, hrejected⟩ := h.rejected
  obtain ⟨slot, hslot⟩ := exists_slot_ne fun x => x.elim s.latest start
  rcases hrejected slot (by omega) with hlatest | ⟨frame, hframe⟩
  · exact hslot none hlatest
  · exact hslot (some frame) hframe

/-- The candidate is rejected. -/
theorem ScanOk.next {s : Mailbox} {latest : Option Slot} {i k : ℕ} (h : ScanOk s latest i k)
    (hreject : ∀ slot : Slot, slot.val = i → s.latest = some slot ∨
      ∃ frame, s.inUse frame = some slot) : ScanOk s latest (i + 1) 0 := by
  obtain ⟨start, hstart, hrejected⟩ := h.rejected
  refine ⟨h.latest_eq, fun _ frame _ hk => absurd hk (Nat.not_lt_zero _), start, hstart, ?_⟩
  intro slot hslot
  rcases Nat.lt_succ_iff_lt_or_eq.mp hslot with hlt | heq
  · exact hrejected slot hlt
  · rcases hreject slot heq with hlatest | ⟨frame, hframe⟩
    · exact Or.inl hlatest
    · -- an entry that is not the latest is as it was when the scan began
      rcases hstart frame with hsame | hlatest | hnone
      · exact Or.inr ⟨frame, hsame ▸ hframe⟩
      · exact Or.inl (hlatest ▸ hframe)
      · rw [hnone] at hframe
        cases hframe

namespace Mailbox

theorem init_inv : init.Inv where
  latest _ h := by cases h
  unpublished _ _ := rfl
  inUse _ _ h := by cases h
  writing _ h := by cases h
  scanning _ _ _ h := by cases h
  frames _ _ h := by cases h
  promoting _ h := by cases h
  loaded _ h := by cases h
  reading _ _ h := by cases h
  recording _ _ h := by cases h
  complete _ h := by cases h
  ordered := List.Pairwise.nil

/-! ### The producer -/

section Producer

variable {s : Mailbox} {p : Producer}

/-- A step of the producer that changes only where it stands. -/
theorem Inv.producer (h : s.Inv)
    (hwriting : ∀ slot, p.writing = some slot →
      s.latest ≠ some slot ∧ ∀ frame, s.inUse frame ≠ some slot)
    (hscanning : ∀ latest i k, p = .scanning latest i k → ScanOk s latest i k) :
    Inv { s with producer := p } :=
  { h with
    writing := hwriting
    scanning := fun latest i k hp =>
      ⟨(hscanning latest i k hp).latest_eq, (hscanning latest i k hp).tested,
        (hscanning latest i k hp).rejected⟩ }

theorem Inv.submit (h : s.Inv) : Inv { s with producer := .started } :=
  h.producer (fun _ hw => by cases hw) (fun _ _ _ hp => by cases hp)

theorem Inv.toIdle (h : s.Inv) : Inv { s with producer := .idle } :=
  h.producer (fun _ hw => by cases hw) (fun _ _ _ hp => by cases hp)

/-- The load of `latest_`. -/
theorem Inv.started (h : s.Inv) : Inv { s with producer := .scanning s.latest 0 0 } := by
  refine h.producer (fun _ hw => by cases hw) fun latest i k hp => ?_
  cases hp
  exact ⟨rfl, fun _ frame _ hk => absurd hk (Nat.not_lt_zero _),
    s.inUse, fun _ => Or.inl rfl, fun slot hslot => absurd hslot (Nat.not_lt_zero _)⟩

/-- A slot that is neither the latest nor in use may hold anything. -/
theorem Inv.overwrite (h : s.Inv) {slot : Slot} (hlatest : s.latest ≠ some slot)
    (hinUse : ∀ frame, s.inUse frame ≠ some slot) (value : Option ℕ) :
    Inv { s with content := Function.update s.content slot value } := by
  -- No frame reads the slot that is written.
  have hkeep : ∀ frame slot', s.inUse frame = some slot' →
      Function.update s.content slot value slot' = s.content slot' := by
    intro frame slot' hslot'
    refine Function.update_of_ne (fun heq => ?_) _ _
    exact hinUse frame (heq ▸ hslot')
  have hnewest : ∀ frame slot', s.inUse frame = some slot' → Newest s slot' →
      Newest { s with content := Function.update s.content slot value } slot' := by
    rintro frame slot' hslot' ⟨n, hn, hgiven⟩
    exact ⟨n, (hkeep frame slot' hslot').trans hn, hgiven⟩
  exact
    { h with
      latest := fun slot' hslot' => by
        have hne : slot' ≠ slot := fun heq => hlatest (heq ▸ hslot')
        exact (Function.update_of_ne hne _ _).trans (h.latest slot' hslot')
      inUse := fun frame slot' hslot' => by
        show Function.update s.content slot value slot' ≠ none
        rw [hkeep frame slot' hslot']
        exact h.inUse frame slot' hslot'
      scanning := fun latest i k hp =>
        ⟨(h.scanning latest i k hp).latest_eq, (h.scanning latest i k hp).tested,
          (h.scanning latest i k hp).rejected⟩
      reading := fun frame slot' hr hslot' =>
        hnewest frame slot' hslot' (h.reading frame slot' hr hslot')
      recording := fun frame cur hr => by
        obtain ⟨hcur, hnew⟩ := h.recording frame cur hr
        exact ⟨hcur, fun slot' hslot' =>
          hnewest frame slot' (hcur.trans hslot') (hnew slot' hslot')⟩ }

/-- A step of `pick_free_slot`. -/
theorem Inv.scan (h : s.Inv) {latest : Option Slot} {i k : ℕ}
    (hp : s.producer = .scanning latest i k) : Inv (scan latest i k s) := by
  have hscan := h.scanning latest i k hp
  have hi := hscan.lt
  rw [ImageMailbox.scan, dif_pos hi]
  by_cases hlatest : latest = some ⟨i, hi⟩
  · rw [if_pos hlatest]
    refine h.producer (fun _ hw => by cases hw) fun _ _ _ hp' => ?_
    cases hp'
    refine hscan.next fun slot hslot => Or.inl ?_
    rw [← hscan.latest_eq, hlatest]
    exact congrArg some (Fin.ext hslot.symm)
  rw [if_neg hlatest]
  by_cases hk : k < kMaxFramesInFlight
  · rw [dif_pos hk]
    by_cases hused : s.inUse ⟨k, hk⟩ = some ⟨i, hi⟩
    · rw [if_pos hused]
      refine h.producer (fun _ hw => by cases hw) fun _ _ _ hp' => ?_
      cases hp'
      refine hscan.next fun slot hslot => Or.inr ⟨⟨k, hk⟩, ?_⟩
      rw [hused]
      exact congrArg some (Fin.ext hslot.symm)
    · rw [if_neg hused]
      refine h.producer (fun _ hw => by cases hw) fun _ _ _ hp' => ?_
      cases hp'
      refine ⟨hscan.latest_eq, fun slot frame hslot hframe hne => ?_, hscan.rejected⟩
      rcases Nat.lt_succ_iff_lt_or_eq.mp hframe with hlt | heq
      · exact hscan.tested slot frame hslot hlt hne
      · obtain rfl : slot = ⟨i, hi⟩ := Fin.ext hslot
        obtain rfl : frame = ⟨k, hk⟩ := Fin.ext heq
        exact hused
  · -- tested against every entry: the slot is picked
    rw [dif_neg hk]
    have hne : s.latest ≠ some ⟨i, hi⟩ := by
      rw [← hscan.latest_eq]
      exact hlatest
    have hfree : ∀ frame, s.inUse frame ≠ some ⟨i, hi⟩ := fun frame =>
      hscan.tested ⟨i, hi⟩ frame rfl (by omega) hne
    refine (h.overwrite hne hfree none).producer (fun slot hw => ?_) (fun _ _ _ hp' => by cases hp')
    cases hw
    exact ⟨hne, hfree⟩

/-- The publish. -/
theorem Inv.publish (h : s.Inv) {slot : Slot} (hp : s.producer = .copied slot)
    (hidle : p.writing = none) (hnot : ∀ latest i k, p ≠ .scanning latest i k) :
    Inv { s with
      latest := some slot
      producer := p
      content := Function.update s.content slot (some (s.publishes + 1))
      publishes := s.publishes + 1 } := by
  obtain ⟨hlatest, hinUse⟩ := h.writing slot (by rw [hp]; rfl)
  -- Writing the slot is safe; what remains is to name it the latest.
  have hover := h.overwrite hlatest hinUse (some (s.publishes + 1))
  exact
    { hover with
      latest := fun slot' hslot' => by
        cases hslot'
        exact Function.update_self _ _ _
      unpublished := fun hnone => by cases hnone
      writing := fun slot' hw => by
        rw [hidle] at hw
        cases hw
      scanning := fun latest i k hp' => absurd hp' (hnot latest i k)
      reading := fun frame slot' hr hslot' => by
        obtain ⟨n, hn, hle, hgiven⟩ := hover.reading frame slot' hr hslot'
        exact ⟨n, hn, Nat.le_succ_of_le hle, hgiven⟩
      recording := fun frame cur hr => by
        obtain ⟨hcur, hnew⟩ := hover.recording frame cur hr
        refine ⟨hcur, fun slot' hslot' => ?_⟩
        obtain ⟨n, hn, hle, hgiven⟩ := hnew slot' hslot'
        exact ⟨n, hn, Nat.le_succ_of_le hle, hgiven⟩
      complete := fun g hg => by
        obtain ⟨n, hn, hle⟩ := h.complete g hg
        exact ⟨n, hn, Nat.le_succ_of_le hle⟩ }

theorem Inv.producerStep (h : s.Inv) {layer : Layer} {s' : Mailbox}
    (hstep : producerStep layer s = some s') : s'.Inv := by
  rw [ImageMailbox.producerStep] at hstep
  cases hp : s.producer with
  | idle =>
    rw [hp] at hstep
    cases hstep
  | started =>
    rw [hp] at hstep
    cases hstep
    exact h.started
  | scanning latest i k =>
    rw [hp] at hstep
    cases hstep
    exact h.scan hp
  | copying slot =>
    rw [hp] at hstep
    cases hstep
    refine h.producer (fun slot' hw => ?_) (fun _ _ _ hp' => by cases hp')
    exact h.writing slot' (by rw [hp]; exact hw)
  | copied slot =>
    -- Publishing is the one step that changes what the renderer may load.
    rw [hp] at hstep
    cases hstep
    refine h.publish hp ?_ ?_
    · split
      · rfl
      · rfl
    · intro latest i k
      split
      · simp
      · simp
  | published =>
    rw [hp] at hstep
    cases hstep
    exact { h.toIdle with
      scanning := fun _ _ _ hp' => by cases hp' }

end Producer

/-! ### The renderer -/

section Renderer

variable {s : Mailbox} {frame : Frame}

/-- A step of the renderer that changes only where it stands. -/
theorem Inv.renderer (h : s.Inv) {r : Renderer}
    (hpromoting : ∀ frame, r.frame = some frame → s.frames frame = none)
    (hloaded : ∀ frame, r = .loaded frame none → ∀ other, s.inUse other = none)
    (hreading : ∀ frame slot, r = .reading frame → s.inUse frame = some slot → Newest s slot)
    (hrecording : ∀ frame cur, r = .recording frame cur → s.inUse frame = cur ∧
      ∀ slot, cur = some slot → Newest s slot) :
    Inv { s with renderer := r } :=
  { h with
    scanning := fun latest i k hp =>
      ⟨(h.scanning latest i k hp).latest_eq, (h.scanning latest i k hp).tested,
        (h.scanning latest i k hp).rejected⟩
    promoting := hpromoting
    loaded := hloaded
    reading := hreading
    recording := hrecording }

theorem Inv.promote (h : s.Inv) (hfree : s.frames frame = none) :
    Inv { s with renderer := .loading frame } := by
  refine h.renderer (fun frame' hr => ?_) (fun _ hr => by cases hr) (fun _ _ hr => by cases hr)
    (fun _ _ hr => by cases hr)
  cases hr
  exact hfree

/-- The load of `latest_`. -/
theorem Inv.load (h : s.Inv) (hr : s.renderer = .loading frame) :
    Inv { s with renderer := .loaded frame s.latest } := by
  refine h.renderer (fun frame' hr' => ?_) (fun frame' hr' => ?_) (fun _ _ hr' => by cases hr')
    (fun _ _ hr' => by cases hr')
  · exact h.promoting frame' (by rw [hr]; exact hr')
  · exact h.unpublished (Renderer.loaded.inj hr').2

/-- What is done with the loaded slot. -/
theorem Inv.decide (h : s.Inv) {latest : Option Slot} (hr : s.renderer = .loaded frame latest)
    (layer : Layer) :
    Inv { s with renderer := layer.decide s.submittedThisFrame frame latest } := by
  -- The frame that is promoted reads no slot yet.
  have hfree : s.frames frame = none := h.promoting frame (by rw [hr]; rfl)
  cases latest with
  | none =>
    have hnone := h.loaded frame hr
    rw [Layer.decide]
    split
    · refine h.renderer (fun frame' hr' => ?_) (fun _ hr' => by cases hr')
        (fun frame' slot _ hslot => ?_)
        (fun _ _ hr' => by cases hr')
      · cases hr'
        exact hfree
      · rw [hnone frame'] at hslot
        cases hslot
    · refine h.renderer (fun frame' hr' => ?_) (fun _ hr' => by cases hr')
        (fun _ _ hr' => by cases hr') (fun _ _ hr' => by cases hr')
      cases hr'
      exact hfree
  | some slot =>
    rw [Layer.decide]
    split
    · refine h.renderer (fun frame' hr' => ?_) (fun _ hr' => by cases hr')
        (fun _ _ hr' => by cases hr') (fun _ _ hr' => by cases hr')
      cases hr'
      exact hfree
    · refine h.renderer (fun frame' hr' => ?_) (fun _ hr' => by cases hr')
        (fun _ _ hr' => by cases hr') (fun _ _ hr' => by cases hr')
      cases hr'
      exact hfree

/-- The latest publish is newer than anything given. -/
theorem Inv.newest (h : s.Inv) {slot : Slot} (hlatest : s.latest = some slot) : Newest s slot := by
  refine ⟨s.publishes, h.latest slot hlatest, le_rfl, fun m hm => ?_⟩
  obtain ⟨n, hn, hle⟩ := h.complete _ hm
  cases hn
  exact hle

/-- A store into `in_use_` of the latest publish, or of `kSlotNone`. -/
theorem Inv.store (h : s.Inv) {value : Option Slot} (hfree : s.frames frame = none)
    (hvalue : value = none ∨ value = s.latest) {r : Renderer} (hframe : r.frame = some frame)
    (hr : r = .reading frame ∨ r = .recording frame value) :
    Inv { s with inUse := Function.update s.inUse frame value, renderer := r } := by
  have hslot : ∀ slot, value = some slot → s.latest = some slot := by
    intro slot hv
    rcases hvalue with hnone | hlatest
    · rw [hnone] at hv
      cases hv
    · rw [← hlatest, hv]
  -- an entry is an old one, or the one just stored
  have hentry : ∀ other slot, Function.update s.inUse frame value other = some slot →
      s.inUse other = some slot ∨ (other = frame ∧ s.latest = some slot) := by
    intro other slot ho
    by_cases hof : other = frame
    · rw [hof, Function.update_self] at ho
      exact Or.inr ⟨hof, hslot slot ho⟩
    · rw [Function.update_of_ne hof] at ho
      exact Or.inl ho
  have hnewest : ∀ slot, value = some slot →
      Newest { s with inUse := Function.update s.inUse frame value, renderer := r } slot :=
    fun slot hv => h.newest (hslot slot hv)
  refine
    { latest := h.latest
      unpublished := fun hnone other => ?_
      inUse := fun other slot ho => ?_
      writing := fun slot hw => ⟨(h.writing slot hw).1, fun other ho => ?_⟩
      scanning := fun latest i k hp => ?_
      frames := fun other slot ho => ?_
      promoting := fun other ho => ?_
      loaded := fun other hl => ?_
      reading := fun other slot hr' ho => ?_
      recording := fun other cur hr' => ?_
      complete := h.complete
      ordered := h.ordered }
  · cases hv : Function.update s.inUse frame value other with
    | none => exact hv
    | some slot =>
      rcases hentry other slot hv with hold | ⟨-, hlatest⟩
      · rw [h.unpublished hnone other] at hold
        cases hold
      · rw [show s.latest = none from hnone] at hlatest
        cases hlatest
  · rcases hentry other slot ho with hold | ⟨-, hlatest⟩
    · exact h.inUse other slot hold
    · show s.content slot ≠ none
      rw [h.latest slot hlatest]
      exact Option.some_ne_none _
  · rcases hentry other slot ho with hold | ⟨-, hlatest⟩
    · exact (h.writing slot hw).2 other hold
    · exact (h.writing slot hw).1 hlatest
  · have hscan := h.scanning latest i k hp
    obtain ⟨start, hstart, hrejected⟩ := hscan.rejected
    refine ⟨hscan.latest_eq, fun slot other hi hk hne ho => ?_, start, fun other => ?_, hrejected⟩
    · rcases hentry other slot ho with hold | ⟨-, hlatest⟩
      · exact hscan.tested slot other hi hk hne hold
      · exact hne hlatest
    · by_cases hof : other = frame
      · subst hof
        have hstored := Function.update_self other value s.inUse
        rcases hvalue with hnone | hlatest
        · exact Or.inr (Or.inr (hstored.trans hnone))
        · exact Or.inr (Or.inl (hstored.trans hlatest))
      · have hkept := Function.update_of_ne hof value s.inUse
        rcases hstart other with hsame | hlatest | hnone
        · exact Or.inl (hkept.trans hsame)
        · exact Or.inr (Or.inl (hkept.trans hlatest))
        · exact Or.inr (Or.inr (hkept.trans hnone))
  · have hof : other ≠ frame := by
      rintro rfl
      rw [hfree] at ho
      cases ho
    exact (Function.update_of_ne hof _ _).trans (h.frames other slot ho)
  · cases hframe.symm.trans ho
    exact hfree
  · rcases hr with rfl | rfl
    · cases hl
    · cases hl
  · rcases hr with rfl | rfl
    · cases hr'
      have hv : value = some slot := (Function.update_self frame value s.inUse).symm.trans ho
      exact hnewest slot hv
    · cases hr'
  · rcases hr with rfl | rfl
    · cases hr'
    · cases hr'
      exact ⟨Function.update_self _ _ _, hnewest⟩

/-- The promotion returns: the frame has its slot. -/
theorem Inv.record (h : s.Inv) {cur : Option Slot} (hr : s.renderer = .recording frame cur)
    (last : Option Slot) :
    Inv { s with
      lastInUseSlot := last
      renderer := .idle
      frames := Function.update s.frames frame cur
      given := s.given ++ (cur.map s.content).toList } := by
  obtain ⟨hcur, hnewest⟩ := h.recording frame cur hr
  refine
    { h with
      scanning := fun latest i k hp =>
        ⟨(h.scanning latest i k hp).latest_eq, (h.scanning latest i k hp).tested,
          (h.scanning latest i k hp).rejected⟩
      frames := fun other slot ho => ?_
      promoting := fun _ ho => by cases ho
      loaded := fun _ hl => by cases hl
      reading := fun _ _ hr' => by cases hr'
      recording := fun _ _ hr' => by cases hr'
      complete := fun g hg => ?_
      ordered := ?_ }
  · by_cases hof : other = frame
    · subst hof
      have hv : cur = some slot := (Function.update_self other cur s.frames).symm.trans ho
      exact hcur.trans hv
    · exact h.frames other slot ((Function.update_of_ne hof _ _).symm.trans ho)
  · -- The content given to this frame is a complete image.
    rcases List.mem_append.mp hg with hg | hg
    · exact h.complete g hg
    · cases cur with
      | none => cases hg
      | some slot =>
        obtain ⟨n, hn, hle, -⟩ := hnewest slot rfl
        obtain rfl := List.mem_singleton.mp hg
        exact ⟨n, hn, hle⟩
  · cases cur with
    | none => simpa using h.ordered
    | some slot =>
      -- It is no older than those given before.
      obtain ⟨n, hn, -, hgiven⟩ := hnewest slot rfl
      refine List.pairwise_append.mpr ⟨h.ordered, List.pairwise_singleton _ _, ?_⟩
      intro g hg g' hg' m m' hm hm'
      obtain rfl := List.mem_singleton.mp hg'
      cases hn.symm.trans hm'
      exact hgiven m (hm ▸ hg)

theorem Inv.rendererStep (h : s.Inv) {layer : Layer} {s' : Mailbox}
    (hprompt : ∀ frame slot, s.renderer = .taking frame slot → s.latest = some slot)
    (hstep : rendererStep layer s = some s') : s'.Inv := by
  rw [ImageMailbox.rendererStep] at hstep
  cases hr : s.renderer with
  | idle =>
    rw [hr] at hstep
    cases hstep
  | loading frame =>
    rw [hr] at hstep
    cases hstep
    exact h.load hr
  | loaded frame latest =>
    rw [hr] at hstep
    cases hstep
    exact h.decide hr layer
  | taking frame slot =>
    have hfree : s.frames frame = none := h.promoting frame (by rw [hr]; rfl)
    -- The loaded slot is still the latest one, so no writer has taken it since.
    have hlatest := hprompt frame slot hr
    rw [hr] at hstep
    cases hstep
    refine h.store hfree (Or.inr hlatest.symm) ?_ ?_
    · split
      · rfl
      · rfl
    · split
      · exact Or.inl rfl
      · exact Or.inr rfl
  | skipping frame =>
    have hfree : s.frames frame = none := h.promoting frame (by rw [hr]; rfl)
    rw [hr] at hstep
    cases hstep
    exact h.store hfree (Or.inl rfl) rfl (Or.inr rfl)
  | reading frame =>
    have hfree : s.frames frame = none := h.promoting frame (by rw [hr]; rfl)
    rw [hr] at hstep
    cases hstep
    refine h.renderer (fun frame' hr' => ?_) (fun _ hr' => by cases hr')
      (fun _ _ hr' => by cases hr') (fun frame' cur hr' => ?_)
    · cases hr'
      exact hfree
    · cases hr'
      exact ⟨rfl, fun slot hslot => h.reading frame slot hr hslot⟩
  | recording frame cur =>
    rw [hr] at hstep
    cases hstep
    exact h.record hr _

end Renderer

/-- **One event keeps the invariant**, unless it promotes a stale slot. -/
theorem Inv.step {s s' : Mailbox} (h : s.Inv) {layer : Layer} {e : Event} (hprompt : Prompt s e)
    (hstep : step layer s e = some s') : s'.Inv := by
  cases e with
  | submit =>
    rw [ImageMailbox.step] at hstep
    split at hstep
    case isTrue =>
      cases hstep
      exact h.submit
    case isFalse => cases hstep
  | producer => exact h.producerStep hstep
  | copyFailed =>
    rw [ImageMailbox.step] at hstep
    split at hstep
    case h_1 =>
      cases hstep
      exact h.toIdle
    case h_2 => cases hstep
  | promote frame =>
    rw [ImageMailbox.step] at hstep
    split at hstep
    case isTrue hfree =>
      cases hstep
      exact h.promote hfree.2
    case isFalse => cases hstep
  | renderer => exact h.rendererStep (hprompt rfl) hstep
  | finished frame =>
    -- A finished frame only lets go of a slot, so the facts about the other frames stay.
    cases hstep
    refine { h with
      scanning := fun latest i k hp =>
        ⟨(h.scanning latest i k hp).latest_eq, (h.scanning latest i k hp).tested,
          (h.scanning latest i k hp).rejected⟩
      frames := fun other slot ho => ?_
      promoting := fun other ho => ?_ }
    · by_cases hof : other = frame
      · subst hof
        have hnone : none = some slot := (Function.update_self other none s.frames).symm.trans ho
        cases hnone
      · exact h.frames other slot ((Function.update_of_ne hof none s.frames).symm.trans ho)
    · by_cases hof : other = frame
      · subst hof
        exact Function.update_self other none s.frames
      · exact (Function.update_of_ne hof none s.frames).trans (h.promoting other ho)
  | frameBegin =>
    cases hstep
    exact { h with
      scanning := fun latest i k hp =>
        ⟨(h.scanning latest i k hp).latest_eq, (h.scanning latest i k hp).tested,
          (h.scanning latest i k hp).rejected⟩ }

end Mailbox

/-! ### Whole runs -/

/-- What the mailbox promises in every state. -/
structure Mailbox.Safe (s : Mailbox) : Prop where
  /-- The slot being written is neither the latest nor with an unfinished frame. -/
  exclusive : ∀ slot, s.producer.writing = some slot →
    s.latest ≠ some slot ∧ ∀ frame, s.frames frame ≠ some slot
  free : ∃ slot, s.latest ≠ some slot ∧ ∀ frame, s.inUse frame ≠ some slot
  /-- `pick_free_slot` does not run out of candidates. -/
  found : ∀ latest i k, s.producer = .scanning latest i k → i < kSlotCount
  held : ∀ frame slot, s.frames frame = some slot → ∃ n, s.content slot = some n
  complete : ∀ g ∈ s.given, ∃ n, g = some n
  ordered : s.given.Pairwise fun g g' => ∀ m n, g = some m → g' = some n → m ≤ n

theorem Mailbox.Inv.safe {s : Mailbox} (h : s.Inv) : s.Safe where
  exclusive := fun slot hw =>
    ⟨(h.writing slot hw).1, fun frame hf => (h.writing slot hw).2 frame (h.frames frame slot hf)⟩
  free := by
    obtain ⟨slot, hslot⟩ := exists_slot_ne fun x => x.elim s.latest s.inUse
    exact ⟨slot, hslot none, fun frame => hslot (some frame)⟩
  found := fun latest i k hp => (h.scanning latest i k hp).lt
  held := fun frame slot hf =>
    Option.ne_none_iff_exists'.mp (h.inUse frame slot (h.frames frame slot hf))
  complete := fun g hg => by
    obtain ⟨n, hn, -⟩ := h.complete g hg
    exact ⟨n, hn⟩
  ordered := h.ordered

/-- Every event of the run is prompt in the state it is taken in. -/
def PromptRun (layer : Layer) (s : Mailbox) : List Event → Prop
  | [] => True
  | e :: rest => Prompt s e ∧ ∀ s', step layer s e = some s' → PromptRun layer s' rest

theorem run_inv {layer : Layer} {events : List Event} {s s' : Mailbox} (h : s.Inv)
    (hprompt : PromptRun layer s events) (hrun : run layer s events = some s') : s'.Inv := by
  induction events generalizing s with
  | nil =>
    cases hrun
    exact h
  | cons e rest ih =>
    obtain ⟨next, hstep, hrest⟩ := Option.bind_eq_some_iff.mp hrun
    exact ih (h.step hprompt.1 hstep) (hprompt.2 next hstep) hrest

/-- **The mailbox is safe along every run without stale promotions.**  For every layer and every
interleaving of `submit` and promotion steps, with copies that fail and frames that finish at any
time: if each slot stored into `in_use_` is the latest publish when it is stored, then in the
state reached the slot being written is neither the latest publish nor one an unfinished frame
was given, a free slot exists and is found, and the frames were given completed publishes that
never go back to an older one. -/
theorem mailbox_safe (layer : Layer) (events : List Event) (s : Mailbox)
    (hprompt : PromptRun layer Mailbox.init events)
    (hrun : run layer Mailbox.init events = some s) : s.Safe :=
  (run_inv Mailbox.init_inv hprompt hrun).safe

/-! ### A stale promotion -/

def frame0 : Frame := ⟨0, by decide⟩
def slot0 : Slot := ⟨0, by decide⟩

/-- A whole `submit` that makes this many tests before it picks. -/
def submitEvents (tests : ℕ) : List Event := .submit :: List.replicate (tests + 4) .producer

/-- Publish into slot 0 and promote it for frame 0. -/
def promptEvents : List Event :=
  submitEvents kMaxFramesInFlight ++ .promote frame0 :: List.replicate 5 .renderer

/-- The promotion of frame 0 has loaded slot 0; slot 1 is published; the next `submit` picks slot
0; and then the promotion goes on. -/
def staleEvents : List Event :=
  submitEvents kMaxFramesInFlight ++ [.promote frame0, .renderer, .renderer]
    ++ submitEvents (kMaxFramesInFlight + 1)
    ++ .submit :: List.replicate (kMaxFramesInFlight + 2) .producer
    ++ [.renderer, .renderer, .renderer]

/-- The slot about to be stored, if any, is the latest publish. -/
def promptNow (s : Mailbox) : Renderer → Bool
  | .taking _ slot => decide (s.latest = some slot)
  | _ => true

/-- Prompt runs can be checked. -/
def promptCheck (layer : Layer) (s : Mailbox) : List Event → Bool
  | [] => true
  | e :: rest => (decide (e ≠ .renderer) || promptNow s s.renderer) &&
    match step layer s e with
    | some s' => promptCheck layer s' rest
    | none => true

theorem promptRun_of_check {layer : Layer} {events : List Event} {s : Mailbox}
    (h : promptCheck layer s events = true) : PromptRun layer s events := by
  induction events generalizing s with
  | nil => trivial
  | cons e rest ih =>
    rw [promptCheck, Bool.and_eq_true] at h
    refine ⟨fun he frame slot hr => ?_, fun s' hstep => ih ?_⟩
    · have hnow := h.1
      rw [hr, he] at hnow
      exact of_decide_eq_true hnow
    · have hrest := h.2
      rw [hstep] at hrest
      exact hrest

theorem prompt_events_safe : ∃ s, run .image Mailbox.init promptEvents = some s ∧
    s.frames frame0 = some slot0 ∧ s.Safe := by
  have hframes : (run .image Mailbox.init promptEvents).map (fun s => s.frames frame0)
      = some (some slot0) := by decide
  obtain ⟨s, hrun, hframe⟩ := Option.map_eq_some_iff.mp hframes
  have hprompt : promptCheck .image Mailbox.init promptEvents = true := by decide
  exact ⟨s, hrun, hframe,
    mailbox_safe .image promptEvents s (promptRun_of_check hprompt) hrun⟩

/-- The producer writes into the slot that the unfinished frame 0 was given. -/
theorem stale_promotion_overwritten : ∃ s, run .image Mailbox.init staleEvents = some s ∧
    s.producer = .copying slot0 ∧ s.frames frame0 = some slot0 ∧ ¬ s.Safe := by
  have hend : (run .image Mailbox.init staleEvents).map (fun s => (s.producer, s.frames frame0))
      = some (.copying slot0, some slot0) := by decide
  obtain ⟨s, hrun, hend⟩ := Option.map_eq_some_iff.mp hend
  obtain ⟨hproducer, hframe⟩ := Prod.mk.inj hend
  refine ⟨s, hrun, hproducer, hframe, fun hsafe => ?_⟩
  exact (hsafe.exclusive slot0 (by rw [hproducer]; rfl)).2 frame0 hframe

end ImageMailbox
