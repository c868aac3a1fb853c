/-
Presentation of a window's frames.

A session draws frames into the images of a swapchain: it acquires an image, waits for the fence of
the image's slot, submits the drawing and presents.  The semaphores of acquire and present come from
a ring that turns with every present, the fences and command buffers belong to the image.

* `beginFrame`, `endFrame` — what the session does and the device calls it makes;
* `device` — which calls reuse something that may still be in use;
* `order` — the same judged from the order of the images alone;
* `reuse_safe_iff` — every run: nothing is reused too early just when the order allows it.

The driver chooses the images, the window its size and the layers whether they fail.  A call that
fails other than by `OUT_OF_DATE` is not part of the model.
-/
import IsaacTeleop.TwinJudges
import Mathlib.Data.Nat.ModEq
import Mathlib.Tactic

namespace WindowPresent

/-! ### Device calls -/

/-- The calls that matter for reuse.  Semaphores are named by their place in the ring, fences and
command buffers by their slot. -/
inductive Call
  /-- A new swapchain with its two rings of semaphores. -/
  | create (count : Nat)
  /-- New fences and command buffers. -/
  | createSlots (count : Nat)
  /-- The image handed out, or none when the swapchain is out of date. -/
  | acquire (available : Nat) (image : Option Nat)
  | waitFence (slot : Nat)
  | resetBuffer (slot : Nat)
  | recordBuffer (slot : Nat)
  | submit (slot available done : Nat)
  | present (image done : Nat)
  | waitIdle
  deriving DecidableEq

/-! ### The session -/

/-- A frame that the backend acquired. -/
structure Frame where
  image : Nat
  available : Nat
  done : Nat
  deriving DecidableEq

structure Session where
  /-- The images of the swapchain, which are also the semaphores of each ring. -/
  count : Nat
  frameSlot : Nat
  needsRecreate : Bool
  /-- The fences and command buffers of the compositor. -/
  slotCount : Nat
  frame : Option Frame
  inProgress : Bool
  deriving DecidableEq

/-- What happens around the start of a frame. -/
structure BeginReply where
  /-- The images of the new swapchain, where the window was resized. -/
  resized : Option Nat
  /-- Whether the layers still fit the backend. -/
  layersFit : Bool
  /-- The images of a new swapchain before the acquire; none while the window is minimized. -/
  recreated : Option Nat
  /-- The image acquired, or none when the swapchain is out of date. -/
  acquired : Option Nat
  /-- The images of a new swapchain after a failed acquire. -/
  recreatedAfter : Option Nat
  /-- Whether every layer is told of the frame without raising. -/
  layersBegin : Bool

/-- What happens while a frame is drawn. -/
structure EndReply where
  /-- Whether the frame is recorded without a layer raising. -/
  layersDraw : Bool
  /-- Whether the swapchain is out of date at the present. -/
  outOfDate : Bool

/-- `Swapchain::recreate`. -/
def Session.recreate (s : Session) (count : Nat) : Session :=
  { s with count := count, frameSlot := 0 }

def recreateCalls (count : Nat) : List Call := [.waitIdle, .create count]

/-- `WindowBackend::begin_frame` once no recreate is pending. -/
def acquireFrame (s : Session) (r : BeginReply) : Session × List Call :=
  match r.acquired with
  | some image =>
    ({ s with frame := some ⟨image, s.frameSlot, s.frameSlot⟩ },
      [.acquire s.frameSlot (some image)])
  | none =>
    match r.recreatedAfter with
    | some count => (s.recreate count, .acquire s.frameSlot none :: recreateCalls count)
    | none => ({ s with needsRecreate := true }, [.acquire s.frameSlot none])

/-- `WindowBackend::begin_frame`. -/
def backendBegin (s : Session) (r : BeginReply) : Session × List Call :=
  if s.needsRecreate then
    match r.recreated with
    | some count =>
      let (s', calls) := acquireFrame { s.recreate count with needsRecreate := false } r
      (s', recreateCalls count ++ calls)
    | none => (s, [])
  else
    acquireFrame s r

/-- A resize seen by `VizSession::pump_events`. -/
def pumpEvents (s : Session) (resized : Option Nat) : Session × List Call :=
  match resized with
  | some count => (s.recreate count, recreateCalls count)
  | none => (s, [])

/-- `VizSession::begin_frame`; a layer that raises leaves the acquired frame behind. -/
def beginFrame (s : Session) (r : BeginReply) : Session × List Call :=
  if s.inProgress then
    (s, [])
  else
    let (s₁, calls₁) := pumpEvents s r.resized
    if r.layersFit then
      let (s₂, calls₂) := backendBegin { s₁ with frame := none } r
      ({ s₂ with inProgress := r.layersBegin }, calls₁ ++ calls₂)
    else
      (s₁, calls₁)

/-- `VizCompositor::ensure_slot_count_matches_backend`. -/
def ensureSlotCount (s : Session) : Session × List Call :=
  if s.count = s.slotCount then
    (s, [])
  else
    ({ s with slotCount := s.count },
      (List.range s.slotCount).map .waitFence ++ [.waitIdle, .createSlots s.count])

/-- `VizCompositor::render` after the slots are there. -/
def draw (gpuTiming : Bool) (s : Session) (frame : Frame) (r : EndReply) : Session × List Call :=
  let slot := frame.image % s.slotCount
  let started := [.waitFence slot, .resetBuffer slot, .recordBuffer slot]
  if r.layersDraw then
    ({ s with
        frameSlot := (s.frameSlot + 1) % s.count
        needsRecreate := s.needsRecreate || r.outOfDate },
      started ++ .submit slot frame.available frame.done ::
        ((if gpuTiming then [.waitFence slot] else []) ++ [.present frame.image frame.done]))
  else
    ({ s with needsRecreate := true }, started ++ [.resetBuffer slot])

/-- `VizSession::end_frame`. -/
def endFrame (gpuTiming : Bool) (s : Session) (r : EndReply) : Session × List Call :=
  if s.inProgress then
    match s.frame with
    | some frame =>
      let (s₁, calls₁) := ensureSlotCount s
      let (s₂, calls₂) := draw gpuTiming s₁ frame r
      ({ s₂ with frame := none, inProgress := false }, calls₁ ++ calls₂)
    | none => ({ s with inProgress := false }, [])
  else
    (s, [])

inductive Op
  | begin (r : BeginReply)
  | finish (r : EndReply)
  /-- `VizSession::remove_layer` drains the device. -/
  | removeLayer

def perform (gpuTiming : Bool) (s : Session) : Op → Session × List Call
  | .begin r => beginFrame s r
  | .finish r => endFrame gpuTiming s r
  | .removeLayer => (s, [.waitIdle])

/-- The session after `VizSession::init`. -/
def Session.start (count : Nat) : Session where
  count := count
  frameSlot := 0
  needsRecreate := false
  slotCount := count
  frame := none
  inProgress := false

/-- The calls of a run from a session. -/
def callsFrom (gpuTiming : Bool) (s : Session) : List Op → List Call
  | [] => []
  | op :: ops => (perform gpuTiming s op).2 ++ callsFrom gpuTiming (perform gpuTiming s op).1 ops

/-- The calls of a run. -/
def trace (gpuTiming : Bool) (count : Nat) (ops : List Op) : List Call :=
  .create count :: .createSlots count :: callsFrom gpuTiming (Session.start count) ops

/-! ### The driver -/

/-- The images of the swapchain and which of them are out. -/
structure Driver where
  count : Nat
  held : List Nat

def Driver.next (d : Driver) : Call → Driver
  | .create count => ⟨count, []⟩
  | .acquire _ (some image) => { d with held := image :: d.held }
  | .present image _ => { d with held := d.held.erase image }
  | _ => d

/-- Between one and five images; one of them is handed out, which was not out already. -/
def Driver.Ok (d : Driver) : Call → Prop
  | .create count => 1 ≤ count ∧ count ≤ 5
  | .acquire _ (some image) => image < d.count ∧ image ∉ d.held
  | _ => True

def driver : Judge Driver Call := ⟨Driver.next, Driver.Ok⟩

/-! ### The device -/

/-- What is known of the objects: a signal that nobody waited for, a wait that is not known to be
over, a submission that is not known to be complete. -/
structure Device where
  availableSignal : Nat → Bool
  /-- The slot of the submission that waits. -/
  availableWait : Nat → Option Nat
  doneSignal : Nat → Bool
  /-- The image of the present that waits. -/
  doneWait : Nat → Option Nat
  pending : Nat → Bool

def Device.start : Device where
  availableSignal _ := false
  availableWait _ := none
  doneSignal _ := false
  doneWait _ := none
  pending _ := false

/-- A submission is known complete through its slot's fence, a present's wait through a new acquire
of its image, and both when the device is idle. -/
def Device.next (d : Device) : Call → Device
  | .create _ =>
    { d with
      availableSignal := fun _ => false
      availableWait := fun _ => none
      doneSignal := fun _ => false
      doneWait := fun _ => none }
  | .createSlots _ => { d with pending := fun _ => false }
  | .acquire _ none => d
  | .acquire k (some image) =>
    { d with
      availableSignal := Function.update d.availableSignal k true
      doneWait := fun k' => if d.doneWait k' = some image then none else d.doneWait k' }
  | .waitFence slot =>
    { d with
      availableWait := fun k => if d.availableWait k = some slot then none else d.availableWait k
      pending := Function.update d.pending slot false }
  | .resetBuffer _ => d
  | .recordBuffer _ => d
  | .submit slot available done =>
    { d with
      availableSignal := Function.update d.availableSignal available false
      availableWait := Function.update d.availableWait available (some slot)
      doneSignal := Function.update d.doneSignal done true
      pending := Function.update d.pending slot true }
  | .present image done =>
    { d with
      doneSignal := Function.update d.doneSignal done false
      doneWait := Function.update d.doneWait done (some image) }
  | .waitIdle =>
    { d with
      availableWait := fun _ => none
      doneWait := fun _ => none
      pending := fun _ => false }

/-- No call uses again what may still be in use. -/
def Device.Ok (d : Device) : Call → Prop
  | .acquire k _ => d.availableSignal k = false ∧ d.availableWait k = none
  | .submit _ _ done => d.doneSignal done = false ∧ d.doneWait done = none
  | .resetBuffer slot => d.pending slot = false
  | .recordBuffer slot => d.pending slot = false
  | _ => True

def device : Judge Device Call := ⟨Device.next, Device.Ok⟩

/-! ### The order of the images -/

/-- What the order of the images tells: those presented since the device was last idle, the latest
first, and the one that a frame has acquired and not presented. -/
structure Order where
  count : Nat
  presented : List Nat
  begun : Option Nat

def Order.next (o : Order) : Call → Order
  | .create count => ⟨count, [], none⟩
  | .acquire _ (some image) => { o with begun := some image }
  | .present image _ => { o with presented := image :: o.presented, begun := none }
  | .waitIdle => { o with presented := [] }
  | _ => o

/-- The image of the present that used the ring's next place, one turn of the ring ago. -/
def Order.turnAgo (o : Order) : Option Nat := o.presented[o.count - 1]?

/-- The images presented since. -/
def Order.since (o : Order) : List Nat := o.presented.take (o.count - 1)

/-- No frame is left behind, and the image presented one turn of the ring ago came again since; at
a submission it may also be the image of the frame. -/
def Order.Ok (gpuTiming : Bool) (o : Order) : Call → Prop
  | .acquire _ _ =>
    o.begun = none ∧ (gpuTiming = true ∨ ∀ image ∈ o.turnAgo, image ∈ o.since)
  | .submit _ _ _ => ∀ image ∈ o.turnAgo, image ∈ o.since ∨ o.begun = some image
  | _ => True

def order (gpuTiming : Bool) : Judge Order Call := ⟨Order.next, Order.Ok gpuTiming⟩

instance (d : Driver) : ∀ call, Decidable (driver.Ok d call)
  | .create count => inferInstanceAs (Decidable (1 ≤ count ∧ count ≤ 5))
  | .acquire _ (some image) => inferInstanceAs (Decidable (image < d.count ∧ image ∉ d.held))
  | .acquire _ none => inferInstanceAs (Decidable True)
  | .createSlots _ => inferInstanceAs (Decidable True)
  | .waitFence _ => inferInstanceAs (Decidable True)
  | .resetBuffer _ => inferInstanceAs (Decidable True)
  | .recordBuffer _ => inferInstanceAs (Decidable True)
  | .submit _ _ _ => inferInstanceAs (Decidable True)
  | .present _ _ => inferInstanceAs (Decidable True)
  | .waitIdle => inferInstanceAs (Decidable True)

instance (d : Device) : ∀ call, Decidable (device.Ok d call)
  | .acquire k _ =>
    inferInstanceAs (Decidable (d.availableSignal k = false ∧ d.availableWait k = none))
  | .submit _ _ done =>
    inferInstanceAs (Decidable (d.doneSignal done = false ∧ d.doneWait done = none))
  | .resetBuffer slot => inferInstanceAs (Decidable (d.pending slot = false))
  | .recordBuffer slot => inferInstanceAs (Decidable (d.pending slot = false))
  | .create _ => inferInstanceAs (Decidable True)
  | .createSlots _ => inferInstanceAs (Decidable True)
  | .waitFence _ => inferInstanceAs (Decidable True)
  | .present _ _ => inferInstanceAs (Decidable True)
  | .waitIdle => inferInstanceAs (Decidable True)

instance (gpuTiming : Bool) (o : Order) : ∀ call, Decidable ((order gpuTiming).Ok o call)
  | .acquire _ _ => inferInstanceAs (Decidable
      (o.begun = none ∧ (gpuTiming = true ∨ ∀ image ∈ o.turnAgo, image ∈ o.since)))
  | .submit _ _ _ => inferInstanceAs (Decidable
      (∀ image ∈ o.turnAgo, image ∈ o.since ∨ o.begun = some image))
  | .create _ => inferInstanceAs (Decidable True)
  | .createSlots _ => inferInstanceAs (Decidable True)
  | .waitFence _ => inferInstanceAs (Decidable True)
  | .resetBuffer _ => inferInstanceAs (Decidable True)
  | .recordBuffer _ => inferInstanceAs (Decidable True)
  | .present _ _ => inferInstanceAs (Decidable True)
  | .waitIdle => inferInstanceAs (Decidable True)

/-! ### Places of the ring -/

/-- In a ring of `count` places whose next place is `next`, place `k` was used `j` turns before the
last present. -/
def Ago (count next j k : Nat) : Prop := (k + j + 1) % count = next

section Ring

variable {count next j k : Nat}

theorem ago_turn (hnext : next < count) : Ago count next (count - 1) next := by
  have hcount : next + (count - 1) + 1 = next + count := by omega
  rw [Ago, hcount, Nat.add_mod_right, Nat.mod_eq_of_lt hnext]

theorem ago_succ (hnext : next < count) :
    Ago count ((next + 1) % count) (j + 1) k ↔ Ago count next j k := by
  have hassoc : k + (j + 1) + 1 = k + j + 1 + 1 := by omega
  rw [Ago, Ago, hassoc]
  constructor
  · intro h
    have hcancel : k + j + 1 ≡ next [MOD count] := Nat.ModEq.add_right_cancel' 1 h
    rw [hcancel, Nat.mod_eq_of_lt hnext]
  · intro h
    rw [Nat.add_mod, h, Nat.add_mod next 1, Nat.mod_eq_of_lt hnext]

theorem ago_zero (hnext : next < count) (hk : k < count) :
    Ago count ((next + 1) % count) 0 k ↔ k = next := by
  constructor
  · intro h
    have hcancel : k ≡ next [MOD count] := Nat.ModEq.add_right_cancel' 1 h
    exact hcancel.eq_of_lt_of_lt hk hnext
  · rintro rfl
    rfl

/-- The next place was last used a whole turn ago. -/
theorem ago_ne_next (hj : j + 1 < count) (h : Ago count next j k) : k ≠ next := by
  rintro rfl
  have hmod : k + (j + 1) ≡ k + 0 [MOD count] := by
    show (k + j + 1) % count = k % count
    have hlt : k < count := by
      rw [← h]
      exact Nat.mod_lt _ (by omega)
    rw [Nat.mod_eq_of_lt hlt]
    exact h
  have hzero := Nat.ModEq.add_left_cancel' k hmod
  rw [Nat.ModEq, Nat.mod_eq_of_lt hj, Nat.zero_mod] at hzero
  omega

end Ring

/-! ### What the order tells about the device -/

/-- The image at place `j` of the order, unless it came again since. -/
def lastOf (presented : List Nat) (j : Nat) : Option Nat :=
  presented[j]?.filter fun image => image ∉ presented.take j

@[simp]
theorem lastOf_nil (j : Nat) : lastOf [] j = none := rfl

theorem lastOf_zero (image : Nat) (presented : List Nat) :
    lastOf (image :: presented) 0 = some image := by
  simp [lastOf]

theorem lastOf_succ (image : Nat) (presented : List Nat) (j : Nat) :
    lastOf (image :: presented) (j + 1) = (lastOf presented j).filter (· ≠ image) := by
  simp only [lastOf, List.getElem?_cons_succ, List.take_succ_cons, Option.filter_filter]
  congr 1
  funext image'
  simp [Bool.and_comm]

theorem lastOf_eq_none {presented : List Nat} {j : Nat} :
    lastOf presented j = none ↔
      ∀ image ∈ presented[j]?, image ∈ presented.take j := by
  simp [lastOf, Option.filter_eq_none_iff]

theorem clear_eq (o : Option Nat) (image : Nat) :
    (if o = some image then none else o) = o.filter (· ≠ image) := by
  cases o with
  | none => rfl
  | some image' => by_cases h : image' = image <;> simp [h, Option.filter_some]

/-- The rings of a swapchain with `count` images whose next place is `next`, as the order of the
images tells. -/
structure Rings (gpuTiming : Bool) (count next : Nat) (x : Driver) (d : Device) (o : Order) :
    Prop where
  next_lt : next < count
  driver : x.count = count
  order : o.count = count
  availableSignal : ∀ k, d.availableSignal k = (decide (k = next) && o.begun.isSome)
  availableWait : ∀ k j, k < count → j < count → Ago count next j k →
    d.availableWait k = if gpuTiming then none else lastOf o.presented j
  doneSignal : ∀ k, d.doneSignal k = false
  doneWait : ∀ k j, k < count → j < count → Ago count next j k →
    d.doneWait k = (lastOf o.presented j).filter fun image => o.begun ≠ some image

section Agreement

variable {gpuTiming : Bool} {count next : Nat} {x : Driver} {d : Device} {o : Order}

/-- Agreement of the device with the order, along what the driver does. -/
abbrev Follows (gpuTiming : Bool) (x : Driver) (d : Device) (o : Order) (calls : List Call)
    (Q : Driver → Device → Order → Prop) : Prop :=
  Judge.Agree driver device (order gpuTiming) x d o calls Q

/-- Where nothing waits, nothing was presented. -/
theorem rings_of_idle (hnext : next < count) (hdriver : x.count = count) (horder : o.count = count)
    (hsignal : ∀ k, d.availableSignal k = (decide (k = next) && o.begun.isSome))
    (hdone : ∀ k, d.doneSignal k = false) (hpresented : o.presented = [])
    (hwait : ∀ k, d.availableWait k = none ∧ d.doneWait k = none) :
    Rings gpuTiming count next x d o where
  next_lt := hnext
  driver := hdriver
  order := horder
  availableSignal := hsignal
  availableWait k j _ _ _ := by simp [hpresented, (hwait k).1]
  doneSignal := hdone
  doneWait k j _ _ _ := by simp [hpresented, (hwait k).2]

/-- An idle device is done with everything. -/
theorem Rings.waitIdle (h : Rings gpuTiming count next x d o) :
    Rings gpuTiming count next x (d.next .waitIdle) (o.next .waitIdle) :=
  rings_of_idle h.next_lt h.driver h.order h.availableSignal h.doneSignal rfl fun _ => ⟨rfl, rfl⟩

/-- A new swapchain has fresh semaphores. -/
theorem rings_create (gpuTiming : Bool) (x : Driver) (d : Device) (o : Order) (hcount : 1 ≤ count) :
    Rings gpuTiming count 0 (x.next (.create count)) (d.next (.create count))
      (o.next (.create count)) :=
  rings_of_idle hcount rfl rfl (fun _ => by simp [Device.next, Order.next]) (fun _ => rfl) rfl
    fun _ => ⟨rfl, rfl⟩

theorem follows_recreate (x : Driver) (d : Device) (o : Order) (count : Nat) :
    Follows gpuTiming x d o (recreateCalls count) (Rings gpuTiming count 0) := by
  refine Judge.Agree.cons (fun _ => Iff.rfl) fun _ _ => ?_
  refine Judge.Agree.cons (fun _ => Iff.rfl) fun hcount _ => ?_
  exact Judge.Agree.nil
    (rings_create gpuTiming x (d.next .waitIdle) (o.next .waitIdle) hcount.1)

/-- **An acquire is safe just when the order allows it.** -/
theorem Rings.acquire_iff (h : Rings gpuTiming count next x d o) (image : Option Nat) :
    d.Ok (.acquire next image) ↔ o.Ok gpuTiming (.acquire next image) := by
  have hsignal : d.availableSignal next = false ↔ o.begun = none := by
    rw [h.availableSignal]
    simp
  have hwait : d.availableWait next = none ↔
      gpuTiming = true ∨ ∀ image ∈ o.turnAgo, image ∈ o.since := by
    have hpos := h.next_lt
    rw [h.availableWait next (count - 1) h.next_lt (by omega) (ago_turn h.next_lt),
      Order.turnAgo, Order.since, h.order, ← lastOf_eq_none]
    cases gpuTiming <;> simp
  exact and_congr hsignal hwait

/-- **A submission is safe just when the order allows it.** -/
theorem Rings.submit_iff (h : Rings gpuTiming count next x d o) (slot available : Nat) :
    d.Ok (.submit slot available next) ↔ o.Ok gpuTiming (.submit slot available next) := by
  have hpos := h.next_lt
  have hwait : d.doneWait next = none ↔
      ∀ image ∈ o.turnAgo, image ∈ o.since ∨ o.begun = some image := by
    rw [h.doneWait next (count - 1) h.next_lt (by omega) (ago_turn h.next_lt),
      Order.turnAgo, Order.since, h.order, lastOf, Option.filter_filter, Option.filter_eq_none_iff]
    refine forall_congr' fun image => imp_congr_right fun _ => ?_
    simp [Classical.or_iff_not_imp_left]
  exact ⟨fun hok => hwait.mp hok.2, fun hok => ⟨h.doneSignal next, hwait.mpr hok⟩⟩

/-- An acquired image was presented to the end. -/
theorem Rings.acquire (h : Rings gpuTiming count next x d o) (hbegun : o.begun = none)
    (image : Nat) :
    Rings gpuTiming count next (x.next (.acquire next (some image)))
      (d.next (.acquire next (some image))) (o.next (.acquire next (some image))) where
  next_lt := h.next_lt
  driver := h.driver
  order := h.order
  availableSignal k := by
    by_cases hk : k = next
    · simp [Device.next, Order.next, hk]
    · simp [Device.next, Order.next, hk, h.availableSignal]
  availableWait := h.availableWait
  doneSignal := h.doneSignal
  doneWait k j hk hj hago := by
    simp only [Device.next, Order.next]
    rw [clear_eq, h.doneWait k j hk hj hago, hbegun, Option.filter_filter]
    congr 1
    funext image'
    simp [eq_comm]

theorem Rings.follows_acquire (h : Rings gpuTiming count next x d o) (image : Option Nat) :
    Follows gpuTiming x d o [.acquire next image] fun x' d' o' =>
      Rings gpuTiming count next x' d' o' ∧
        ∀ i, image = some i → o'.begun = some i ∧ i < count := by
  refine Judge.Agree.cons (fun _ => h.acquire_iff image) fun hdriver hok => Judge.Agree.nil ?_
  cases image with
  | none => exact ⟨h, by simp⟩
  | some i =>
    have hbegun := ((h.acquire_iff (some i)).mp hok).1
    refine ⟨h.acquire hbegun i, ?_⟩
    rintro i' heq
    obtain rfl := Option.some.inj heq
    exact ⟨rfl, h.driver ▸ hdriver.1⟩

/-- The wait for the fence of an image's slot ends the wait of the submission there. -/
theorem follows_waitFences (x : Driver) (d : Device) (o : Order) (slots : List Nat) :
    Follows gpuTiming x d o (slots.map .waitFence) fun x' d' o' =>
      x' = x ∧ o' = o ∧ d'.availableSignal = d.availableSignal ∧ d'.doneSignal = d.doneSignal := by
  induction slots generalizing d with
  | nil => exact Judge.Agree.nil ⟨rfl, rfl, rfl, rfl⟩
  | cons slot slots ih =>
    exact Judge.Agree.cons (fun _ => Iff.rfl) fun _ _ => ih (d.next (.waitFence slot))

/-- New slots keep the rings. -/
theorem Rings.follows_ensureSlotCount {s : Session}
    (h : Rings gpuTiming s.count s.frameSlot x d o) :
    Follows gpuTiming x d o (ensureSlotCount s).2 fun x' d' o' =>
      Rings gpuTiming s.count s.frameSlot x' d' o' ∧ o'.begun = o.begun := by
  rw [ensureSlotCount]
  split
  · exact Judge.Agree.nil ⟨h, rfl⟩
  · refine (follows_waitFences x d o (List.range s.slotCount)).append ?_
    rintro x' d' o' ⟨rfl, rfl, hsignal, hdone⟩
    refine Judge.Agree.cons (fun _ => Iff.rfl) fun _ _ => ?_
    refine Judge.Agree.cons (fun _ => Iff.rfl) fun _ _ => Judge.Agree.nil ?_
    refine ⟨rings_of_idle h.next_lt h.driver h.order ?_ ?_ rfl fun _ => ⟨rfl, rfl⟩, rfl⟩
    · intro k
      show d'.availableSignal k = _
      rw [hsignal]
      exact h.availableSignal k
    · intro k
      show d'.doneSignal k = false
      rw [hdone]
      exact h.doneSignal k

/-- **The rings after one more present.** The place it used holds its image, every other place
what it held unless the image came again. -/
theorem Rings.turn (h : Rings gpuTiming count next x d o) {image : Nat}
    (hbegun : o.begun = some image) {x' : Driver} {d' : Device} (hx : x'.count = count)
    (hsignal : ∀ k, d'.availableSignal k = false) (hdone : ∀ k, d'.doneSignal k = false)
    (hnext : d'.availableWait next = (if gpuTiming then none else some image) ∧
      d'.doneWait next = some image)
    (hother : ∀ k, k ≠ next →
      d'.availableWait k = (d.next (.waitFence image)).availableWait k ∧
      d'.doneWait k = d.doneWait k) :
    Rings gpuTiming count ((next + 1) % count) x' d' (o.next (.present image next)) where
  next_lt := Nat.mod_lt _ (by have := h.next_lt; omega)
  driver := hx
  order := h.order
  availableSignal k := by simp [hsignal, Order.next]
  availableWait k j hk hj hago := by
    simp only [Order.next]
    cases j with
    | zero =>
      obtain rfl := (ago_zero h.next_lt hk).mp hago
      rw [hnext.1, lastOf_zero]
    | succ j =>
      -- Every other slot is one turn older than it was.
      have hago' := (ago_succ h.next_lt).mp hago
      rw [(hother k (ago_ne_next hj hago')).1, lastOf_succ]
      simp only [Device.next]
      rw [clear_eq, h.availableWait k j hk (by omega) hago']
      cases gpuTiming <;> simp
  doneSignal := hdone
  doneWait k j hk hj hago := by
    simp only [Order.next]
    cases j with
    | zero =>
      obtain rfl := (ago_zero h.next_lt hk).mp hago
      rw [hnext.2, lastOf_zero]
      simp [Option.filter_some]
    | succ j =>
      have hago' := (ago_succ h.next_lt).mp hago
      rw [(hother k (ago_ne_next hj hago')).2, lastOf_succ,
        h.doneWait k j hk (by omega) hago', hbegun, Option.filter_filter]
      congr 1
      funext image'
      simp [eq_comm]

/-- **A frame that is drawn and presented turns the rings.** -/
theorem Rings.follows_present (h : Rings gpuTiming count next x d o) {image : Nat}
    (hbegun : o.begun = some image) :
    Follows gpuTiming x d o
      ([.waitFence image, .resetBuffer image, .recordBuffer image] ++ .submit image next next ::
        ((if gpuTiming then [.waitFence image] else []) ++ [.present image next]))
      (Rings gpuTiming count ((next + 1) % count)) := by
  have hreset : (d.next (.waitFence image)).pending image = false := by simp [Device.next]
  -- The submission waits for both signals, so none is left over.
  have hsignal : ∀ k, Function.update d.availableSignal next false k = false := by
    intro k
    by_cases hk : k = next
    · simp [hk]
    · simp [hk, h.availableSignal]
  have hdone : ∀ k, Function.update (Function.update d.doneSignal next true) next false k =
      false := by
    intro k
    by_cases hk : k = next
    · simp [hk]
    · simp [hk, h.doneSignal]
  refine Judge.Agree.cons (fun _ => Iff.rfl) fun _ _ => ?_
  refine Judge.Agree.cons (fun _ => iff_of_true hreset trivial) fun _ _ => ?_
  refine Judge.Agree.cons (fun _ => iff_of_true hreset trivial) fun _ _ => ?_
  refine Judge.Agree.cons (fun _ => h.submit_iff image next) fun _ _ => ?_
  cases gpuTiming with
  | false =>
    refine Judge.Agree.cons (fun _ => Iff.rfl) fun _ _ => Judge.Agree.nil ?_
    refine h.turn hbegun h.driver hsignal hdone ⟨?_, ?_⟩ fun k hk => ⟨?_, ?_⟩
    · exact Function.update_self _ _ _
    · exact Function.update_self _ _ _
    · exact Function.update_of_ne hk _ _
    · exact Function.update_of_ne hk _ _
  | true =>
    -- With GPU timing the fence is waited for once more before the present.
    refine Judge.Agree.cons (fun _ => Iff.rfl) fun _ _ => ?_
    refine Judge.Agree.cons (fun _ => Iff.rfl) fun _ _ => Judge.Agree.nil ?_
    refine h.turn hbegun h.driver hsignal hdone ⟨?_, ?_⟩ fun k hk => ⟨?_, ?_⟩
    · simp [device, Device.next]
    · exact Function.update_self _ _ _
    · simp [device, Device.next, hk]
    · exact Function.update_of_ne hk _ _

/-- A frame that a layer breaks off resets only its own command buffer. -/
theorem follows_abort (x : Driver) (d : Device) (o : Order) (image : Nat) :
    Follows gpuTiming x d o
      ([.waitFence image, .resetBuffer image, .recordBuffer image] ++ [.resetBuffer image])
      fun _ _ _ => True := by
  have hreset : (d.next (.waitFence image)).pending image = false := by simp [Device.next]
  refine Judge.Agree.cons (fun _ => Iff.rfl) fun _ _ => ?_
  refine Judge.Agree.cons (fun _ => iff_of_true hreset trivial) fun _ _ => ?_
  refine Judge.Agree.cons (fun _ => iff_of_true hreset trivial) fun _ _ => ?_
  exact Judge.Agree.cons (fun _ => iff_of_true hreset trivial) fun _ _ => Judge.Agree.nil trivial

end Agreement

/-! ### Every run -/

/-- Between two operations the rings are as the order tells, unless a new swapchain is due; a frame
in progress holds the ring's next place. -/
structure Inv (gpuTiming : Bool) (s : Session) (x : Driver) (d : Device) (o : Order) : Prop where
  rings : s.needsRecreate = false → Rings gpuTiming s.count s.frameSlot x d o
  frame : ∀ f, s.inProgress = true → s.frame = some f →
    s.needsRecreate = false ∧ f = ⟨f.image, s.frameSlot, s.frameSlot⟩ ∧ o.begun = some f.image ∧
      f.image < s.count

section Run

variable {gpuTiming : Bool} {s : Session} {x : Driver} {d : Device} {o : Order}

theorem Inv.follows_pumpEvents (h : Inv gpuTiming s x d o) (resized : Option Nat)
    (hidle : s.inProgress = false) :
    Follows gpuTiming x d o (pumpEvents s resized).2 (Inv gpuTiming (pumpEvents s resized).1) := by
  cases resized with
  | none => exact Judge.Agree.nil h
  | some count =>
    refine (follows_recreate x d o count).imp fun x' d' o' hrings => ⟨fun _ => hrings, ?_⟩
    intro f hprogress
    exact absurd hprogress (by simp [pumpEvents, Session.recreate, hidle])

theorem follows_acquireFrame (h : Rings gpuTiming s.count s.frameSlot x d o)
    (hrecreate : s.needsRecreate = false) (hframe : s.frame = none) (r : BeginReply) (b : Bool) :
    Follows gpuTiming x d o (acquireFrame s r).2 fun x' d' o' =>
      Inv gpuTiming { (acquireFrame s r).1 with inProgress := b } x' d' o' := by
  rw [acquireFrame]
  cases hacquired : r.acquired with
  | some image =>
    refine (h.follows_acquire (some image)).imp fun x' d' o' hacquire => ?_
    obtain ⟨hrings, hbegun⟩ := hacquire
    refine ⟨fun _ => hrings, ?_⟩
    rintro f - hf
    obtain rfl := Option.some.inj hf
    exact ⟨hrecreate, rfl, hbegun image rfl⟩
  | none =>
    cases hafter : r.recreatedAfter with
    | some count =>
      -- The swapchain is out of date: it is made anew, and no frame is open.
      refine Judge.Agree.cons (fun _ => h.acquire_iff none) fun _ _ => ?_
      refine (follows_recreate _ _ _ count).imp fun x' d' o' hrings => ⟨fun _ => hrings, ?_⟩
      intro f _ hf
      exact absurd hf (by simp [Session.recreate, hframe])
    | none =>
      refine (h.follows_acquire none).imp fun x' d' o' _ => ⟨fun hneeds => ?_, ?_⟩
      · exact absurd hneeds (by simp)
      · intro f _ hf
        exact absurd hf (by simp [hframe])

theorem Inv.follows_backendBegin (h : Inv gpuTiming s x d o) (hframe : s.frame = none)
    (r : BeginReply) (b : Bool) :
    Follows gpuTiming x d o (backendBegin s r).2 fun x' d' o' =>
      Inv gpuTiming { (backendBegin s r).1 with inProgress := b } x' d' o' := by
  rw [backendBegin]
  cases hneeds : s.needsRecreate with
  | false =>
    rw [if_neg Bool.false_ne_true]
    exact follows_acquireFrame (h.rings hneeds) hneeds hframe r b
  | true =>
    rw [if_pos rfl]
    cases r.recreated with
    | none =>
      refine Judge.Agree.nil ⟨fun hfalse => ?_, ?_⟩
      · exact absurd (hneeds.symm.trans hfalse) (by simp)
      · intro f _ hf
        exact absurd hf (by simp [hframe])
    | some count =>
      refine (follows_recreate x d o count).append fun x' d' o' hrings => ?_
      exact follows_acquireFrame (s := { s.recreate count with needsRecreate := false }) hrings rfl
        hframe r b

theorem Inv.follows_beginFrame (h : Inv gpuTiming s x d o) (r : BeginReply) :
    Follows gpuTiming x d o (beginFrame s r).2 (Inv gpuTiming (beginFrame s r).1) := by
  rw [beginFrame]
  split
  · exact Judge.Agree.nil h
  · rename_i hidle
    have hidle' : s.inProgress = false := by simpa using hidle
    have hpump := h.follows_pumpEvents r.resized hidle'
    dsimp only
    split
    · refine hpump.append fun x' d' o' hinv => ?_
      have hinv' : Inv gpuTiming { (pumpEvents s r.resized).1 with frame := none } x' d' o' :=
        ⟨hinv.rings, fun f _ hf => absurd hf (by simp)⟩
      exact hinv'.follows_backendBegin rfl r r.layersBegin
    · exact hpump

/-- **Drawing a frame.** -/
theorem follows_draw (h : Rings gpuTiming s.count s.frameSlot x d o)
    (hslots : s.slotCount = s.count) {f : Frame}
    (hf : f = ⟨f.image, s.frameSlot, s.frameSlot⟩) (hbegun : o.begun = some f.image)
    (himage : f.image < s.count) (r : EndReply) :
    Follows gpuTiming x d o (draw gpuTiming s f r).2
      (Inv gpuTiming { (draw gpuTiming s f r).1 with frame := none, inProgress := false }) := by
  have hslot : f.image % s.slotCount = f.image := by rw [hslots, Nat.mod_eq_of_lt himage]
  simp only [draw, hslot]
  split
  · rw [hf]
    refine (h.follows_present hbegun).imp fun x' d' o' hrings => ⟨fun _ => hrings, ?_⟩
    intro f' hprogress
    exact absurd hprogress (by simp)
  · refine (follows_abort x d o f.image).imp fun x' d' o' _ => ⟨fun hneeds => ?_, ?_⟩
    · exact absurd hneeds (by simp)
    · intro f' hprogress
      exact absurd hprogress (by simp)

theorem ensureSlotCount_spec (s : Session) :
    (ensureSlotCount s).1 = { s with slotCount := s.count } := by
  rw [ensureSlotCount]
  split
  · rename_i heq
    cases s
    cases heq
    rfl
  · rfl

theorem Inv.follows_endFrame (h : Inv gpuTiming s x d o) (r : EndReply) :
    Follows gpuTiming x d o (endFrame gpuTiming s r).2
      (Inv gpuTiming (endFrame gpuTiming s r).1) := by
  rw [endFrame]
  split
  · rename_i hprogress
    cases hframe : s.frame with
    | none =>
      refine Judge.Agree.nil ⟨h.rings, fun f hprogress' => ?_⟩
      exact absurd hprogress' (by simp)
    | some f =>
      obtain ⟨hrecreate, hf, hbegun, himage⟩ := h.frame f hprogress hframe
      refine ((h.rings hrecreate).follows_ensureSlotCount).append fun x' d' o' hensured => ?_
      obtain ⟨hrings, hbegun'⟩ := hensured
      simp only [ensureSlotCount_spec]
      exact follows_draw (s := { s with slotCount := s.count }) hrings rfl hf
        (hbegun'.trans hbegun) himage r
  · exact Judge.Agree.nil h

/-- One operation. -/
theorem Inv.follows_perform (h : Inv gpuTiming s x d o) (op : Op) :
    Follows gpuTiming x d o (perform gpuTiming s op).2
      (Inv gpuTiming (perform gpuTiming s op).1) := by
  cases op with
  | begin r => exact h.follows_beginFrame r
  | finish r => exact h.follows_endFrame r
  | removeLayer =>
    refine Judge.Agree.cons (fun _ => Iff.rfl) fun _ _ => Judge.Agree.nil ?_
    exact ⟨fun hneeds => (h.rings hneeds).waitIdle, h.frame⟩

theorem Inv.follows_callsFrom (h : Inv gpuTiming s x d o) (ops : List Op) :
    Follows gpuTiming x d o (callsFrom gpuTiming s ops) fun _ _ _ => True := by
  induction ops generalizing s x d o with
  | nil => exact Judge.Agree.nil trivial
  | cons op ops ih => exact (h.follows_perform op).append fun _ _ _ hinv => ih hinv

end Run

/-- Before any call nothing is there. -/
def Driver.start : Driver := ⟨0, []⟩

def Order.start : Order := ⟨0, [], none⟩

theorem follows_trace (gpuTiming : Bool) (count : Nat) (ops : List Op) :
    Follows gpuTiming Driver.start Device.start Order.start (trace gpuTiming count ops)
      fun _ _ _ => True := by
  refine Judge.Agree.cons (fun _ => Iff.rfl) fun hcount _ => ?_
  refine Judge.Agree.cons (fun _ => Iff.rfl) fun _ _ => ?_
  refine Inv.follows_callsFrom (s := Session.start count) ⟨fun _ => ?_, ?_⟩ ops
  · exact rings_create gpuTiming Driver.start Device.start Order.start hcount.1
  · intro f hprogress
    exact absurd hprogress (by simp [Session.start])

/-- **Nothing is reused too early just when the order of the images allows it.** In every run of a
session, with every choice of the driver, every resize, abort and new swapchain: no acquire takes a
semaphore with a signal left or a wait not known to be over, no submission signals a semaphore
whose present is not known to be over and no command buffer is touched while its submission is not
known to be complete, if and only if no acquire follows a frame that was left behind, the image
presented one turn of the ring before an acquire came again since (unless every submission is waited
for), and the one presented a turn before a submission came again since or is the frame's own. -/
theorem reuse_safe_iff (gpuTiming : Bool) (count : Nat) (ops : List Op)
    (hdriver : driver.Good Driver.start (trace gpuTiming count ops)) :
    device.Good Device.start (trace gpuTiming count ops) ↔
      (order gpuTiming).Good Order.start (trace gpuTiming count ops) :=
  (follows_trace gpuTiming count ops hdriver).1

/-- A frame into the given image, without a resize or a failure. -/
def frameInto (image : Nat) : List Op :=
  [.begin ⟨none, true, none, some image, none, true⟩, .finish ⟨true, false⟩]

/-- Three images that come in an order with early returns are never reused too early. -/
theorem early_returns_safe :
    driver.Good Driver.start (trace false 3 ([0, 1, 0, 1, 0].flatMap frameInto)) ∧
      device.Good Device.start (trace false 3 ([0, 1, 0, 1, 0].flatMap frameInto)) :=
  ⟨by decide, (reuse_safe_iff false 3 _ (by decide)).mpr (by decide)⟩

/-- Three images that come in turn: the fourth acquire takes the first semaphore again while the
first submission is not known to be complete. -/
theorem turns_reuse_early :
    ¬∀ (gpuTiming : Bool) (count : Nat) (ops : List Op),
      driver.Good Driver.start (trace gpuTiming count ops) →
      device.Good Device.start (trace gpuTiming count ops) := by
  intro h
  have hgood := h false 3 ([0, 1, 2, 0].flatMap frameInto) (by decide)
  exact absurd hgood (by decide)

end WindowPresent
