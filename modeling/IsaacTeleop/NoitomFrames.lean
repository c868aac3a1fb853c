/-
Full-body frames of the Noitom plugin.

An avatar is a tree of joints.  A visit multiplies the local poses along the tree and writes the
pose of a joint into the slot that its name maps to; the slots of the hands and feet are filled
from the wrist or ankle as long as they have no valid pose.  A joint is marked valid by its own
queries alone.

* `normalizeJointName`, `publishJoint`, `visitJoint`, `handleAvatar`, `update` — the code;
* `paths`, `filler` — the joints of a tree, and the one whose pose stays in a slot;
* `publish_filler` — the slots after a visit;
* `full_body_frame` — what a pushed frame says.
-/
import IsaacTeleop.ByteText

open ByteText

namespace NoitomFrames

/-! ### Joints -/

inductive BodyJoint
  | pelvis | leftHip | rightHip | spine1 | leftKnee | rightKnee | spine2 | leftAnkle | rightAnkle
  | spine3 | leftFoot | rightFoot | neck | leftCollar | rightCollar | head | leftShoulder
  | rightShoulder | leftElbow | rightElbow | leftWrist | rightWrist | leftHand | rightHand
  deriving DecidableEq

def bodyJoints : List BodyJoint :=
  [.pelvis, .leftHip, .rightHip, .spine1, .leftKnee, .rightKnee, .spine2, .leftAnkle, .rightAnkle,
    .spine3, .leftFoot, .rightFoot, .neck, .leftCollar, .rightCollar, .head, .leftShoulder,
    .rightShoulder, .leftElbow, .rightElbow, .leftWrist, .rightWrist, .leftHand, .rightHand]

theorem mem_bodyJoints (slot : BodyJoint) : slot ∈ bodyJoints := by
  cases slot <;> decide

/-- `normalize_joint_name` -/
def normalizeJointName (name : ByteText) : ByteText :=
  (name.filter fun c => !(c = byte ' ' || c = byte '_' || c = byte '-')).map fun c =>
    if byte 'A' ≤ c && c ≤ byte 'Z' then c + 32 else c

/-- The table of `map_noitom_joint_name`. -/
def jointNames : List (List String × BodyJoint) :=
  [(["hips", "hip", "pelvis"], .pelvis), (["leftupleg", "lefthip"], .leftHip),
    (["rightupleg", "righthip"], .rightHip), (["spine"], .spine1), (["spine1"], .spine2),
    (["spine2", "chest"], .spine3), (["leftleg", "leftknee"], .leftKnee),
    (["rightleg", "rightknee"], .rightKnee), (["leftfoot", "leftankle"], .leftAnkle),
    (["rightfoot", "rightankle"], .rightAnkle), (["lefttoebase", "lefttoe"], .leftFoot),
    (["righttoebase", "righttoe"], .rightFoot), (["neck"], .neck), (["head"], .head),
    (["leftshoulder", "leftcollar"], .leftCollar), (["rightshoulder", "rightcollar"], .rightCollar),
    (["leftarm", "leftupperarm"], .leftShoulder), (["rightarm", "rightupperarm"], .rightShoulder),
    (["leftforearm", "leftelbow"], .leftElbow), (["rightforearm", "rightelbow"], .rightElbow),
    (["lefthand", "leftwrist"], .leftWrist), (["righthand", "rightwrist"], .rightWrist),
    (["lefthandend", "lefthandtip"], .leftHand), (["righthandend", "righthandtip"], .rightHand)]

/-- `map_noitom_joint_name` -/
def mapNoitomJointName (name : ByteText) : Option BodyJoint :=
  (jointNames.find? fun entry => entry.1.any fun known => normalizeJointName name = lit known).map
    Prod.snd

/-- The slot that a wrist or an ankle fills too. -/
def endpoint : BodyJoint → Option BodyJoint
  | .leftWrist => some .leftHand
  | .rightWrist => some .rightHand
  | .leftAnkle => some .leftFoot
  | .rightAnkle => some .rightFoot
  | _ => none

/-- The queries of one joint; the local pose is what they have left in the variables, and the name
is null if it was not written. -/
structure Read (P : Type) where
  nameOk : Bool
  name : Option ByteText
  positionOk : Bool
  rotationOk : Bool
  localPose : P

namespace Read

variable {P : Type}

/-- `valid` -/
def ok (r : Read P) : Bool := r.nameOk && r.positionOk && r.rotationOk

/-- The local pose was read. -/
def poseOk (r : Read P) : Bool := r.positionOk && r.rotationOk

def slot (r : Read P) : Option BodyJoint := mapNoitomJointName (r.name.getD [])

end Read

mutual

/-- A joint; `childError` says that the query of its children raises. -/
inductive Joint (P : Type)
  | node (read : Read P) (childError : Bool) (children : Joints P)

inductive Joints (P : Type)
  | nil
  | cons (joint : Joint P) (rest : Joints P)

end

/-- Poses in single precision, as the code computes them. -/
structure PoseOps (P : Type) where
  identity : P
  multiply : P → P → P
  /-- the pose in meters -/
  publish : P → P
  /-- the pose of `make_invalid_body_joint_pose` -/
  blank : P

/-! ### The frame -/

/-- A slot; `source` is not in the code: it is the path to the joint that has filled it. -/
structure BodyJointPose (P : Type) where
  pose : P
  isValid : Bool
  source : List (Read P)

structure Slots (P : Type) where
  joints : BodyJoint → BodyJointPose P
  seen : BodyJoint → Bool

structure Frame (P : Type) where
  joints : Option (BodyJoint → BodyJointPose P)
  allJointPosesTracked : Bool

section Code

variable {P : Type} (ops : PoseOps P)

def Slots.set (s : Slots P) (slot : BodyJoint) (pose : BodyJointPose P) : Slots P where
  joints := Function.update s.joints slot pose
  seen := Function.update s.seen slot pose.isValid

/-- `publish_joint` -/
def publishJoint (s : Slots P) (name : ByteText) (worldPose : P) (valid : Bool)
    (source : List (Read P)) : Slots P :=
  match mapNoitomJointName name with
  | none => s
  | some slot =>
    let jointPose : BodyJointPose P := ⟨ops.publish worldPose, valid, source⟩
    let s := s.set slot jointPose
    match endpoint slot with
    | none => s
    | some last => if s.seen last then s else s.set last jointPose

mutual

/-- `visit_joint`; `none` is an exception. -/
def visitJoint (s : Slots P) (parentPose : P) (above : List (Read P)) : Joint P → Option (Slots P)
  | .node read childError children =>
    let worldPose := ops.multiply parentPose read.localPose
    let s := publishJoint ops s (read.name.getD []) worldPose read.ok (above ++ [read])
    if childError then none else visitJoints s worldPose (above ++ [read]) children

def visitJoints (s : Slots P) (parentPose : P) (above : List (Read P)) :
    Joints P → Option (Slots P)
  | .nil => some s
  | .cons joint rest =>
    match visitJoint s parentPose above joint with
    | some s => visitJoints s parentPose above rest
    | none => none

end

/-- What an avatar answers; `fails` is a query whose error is not handled. -/
structure Avatar (P : Type) where
  fails : Bool
  root : Option (Joint P)

def blankSlots : Slots P := ⟨fun _ => ⟨ops.blank, false, []⟩, fun _ => false⟩

/-- `handle_avatar` -/
def handleAvatar (frame : Frame P) (avatar : Avatar P) : Option (Frame P × Bool) :=
  if avatar.fails then none
  else
    match avatar.root with
    | none => some ({ frame with joints := none }, false)
    | some root =>
      (visitJoint ops (blankSlots ops) ops.identity [] root).map fun s =>
        (⟨some s.joints, bodyJoints.all s.seen⟩, true)

/-- A loop over avatars, with `should_push`. -/
def handleAvatars (frame : Frame P) (shouldPush : Bool) :
    List (Avatar P) → Option (Frame P × Bool)
  | [] => some (frame, shouldPush)
  | avatar :: avatars =>
    match handleAvatar ops frame avatar with
    | some (frame, handled) => handleAvatars frame (handled || shouldPush) avatars
    | none => none

/-- `update`: the frame that it pushes. -/
def update (frame : Frame P) (events polled : List (Avatar P)) : Option (Frame P) :=
  match handleAvatars ops frame false events with
  | none => none
  | some (frame, true) => some frame
  | some (frame, false) =>
    match handleAvatars ops frame false polled with
    | some (frame, true) => some frame
    | _ => none

end Code

/-! ### The visited joints -/

section Paths

variable {P : Type} (ops : PoseOps P)

mutual

/-- The joints of a tree in the order of the visit, each with the path to it. -/
def paths (above : List (Read P)) : Joint P → List (List (Read P))
  | .node read _ children => (above ++ [read]) :: forestPaths (above ++ [read]) children

def forestPaths (above : List (Read P)) : Joints P → List (List (Read P))
  | .nil => []
  | .cons joint rest => paths above joint ++ forestPaths above rest

end

/-- The composition of the local poses of a path. -/
def compose (path : List (Read P)) : P :=
  path.foldl (fun pose read => ops.multiply pose read.localPose) ops.identity

@[simp] theorem compose_append (path : List (Read P)) (read : Read P) :
    compose ops (path ++ [read]) = ops.multiply (compose ops path) read.localPose := by
  simp [compose]

/-- The slot of the last joint of a path, and whether its queries succeeded. -/
def slotOf (path : List (Read P)) : Option BodyJoint := path.getLast?.bind Read.slot

def okOf (path : List (Read P)) : Bool := path.getLast?.any Read.ok

/-- `publish_joint` for the last joint of a path. -/
def publishPath (s : Slots P) (path : List (Read P)) : Slots P :=
  match slotOf path with
  | none => s
  | some slot =>
    let jointPose : BodyJointPose P := ⟨ops.publish (compose ops path), okOf path, path⟩
    let s := s.set slot jointPose
    match endpoint slot with
    | none => s
    | some last => if s.seen last then s else s.set last jointPose

theorem publishPath_append (s : Slots P) (above : List (Read P)) (read : Read P) :
    publishPath ops s (above ++ [read]) = publishJoint ops s (read.name.getD [])
      (ops.multiply (compose ops above) read.localPose) read.ok (above ++ [read]) := by
  simp only [publishPath, publishJoint, slotOf, okOf, List.getLast?_concat, Option.bind_some,
    Option.any_some, compose_append, Read.slot]

mutual

/-- **A visit publishes the joints of the tree one by one.** -/
theorem visitJoint_eq {s s' : Slots P} {above : List (Read P)} {joint : Joint P}
    (h : visitJoint ops s (compose ops above) above joint = some s') :
    s' = (paths above joint).foldl (publishPath ops) s := by
  cases joint with
  | node read childError children =>
    rw [visitJoint, ← publishPath_append, ← compose_append] at h
    split at h
    · cases h
    · rw [paths, List.foldl_cons]
      exact visitJoints_eq h

theorem visitJoints_eq {s s' : Slots P} {above : List (Read P)} {joints : Joints P}
    (h : visitJoints ops s (compose ops above) above joints = some s') :
    s' = (forestPaths above joints).foldl (publishPath ops) s := by
  cases joints with
  | nil =>
    rw [visitJoints] at h
    exact (Option.some.inj h).symm
  | cons joint rest =>
    rw [visitJoints] at h
    split at h
    · rename_i t ht
      have hjoint := visitJoint_eq ht
      have hrest := visitJoints_eq h
      rw [forestPaths, List.foldl_append, ← hjoint]
      exact hrest
    · cases h

end

/-! ### Who fills a slot -/

/-- The joint whose valid pose stays in a slot: the last one of the slot's name if its queries
succeeded, and else the first wrist or ankle after it whose queries did. -/
def filler (visits : List (List (Read P))) (slot : BodyJoint) : Option (List (Read P)) :=
  ((visits.filter fun path => slotOf path = some slot).getLast?.filter okOf).or
    ((visits.rtakeWhile fun path => slotOf path ≠ some slot).find? fun path =>
      okOf path && (slotOf path).bind endpoint = some slot)

/-- The slot shows the pose of this joint, or nothing valid. -/
def Shows (s : Slots P) (slot : BodyJoint) : Option (List (Read P)) → Prop
  | some path => s.joints slot = ⟨ops.publish (compose ops path), true, path⟩ ∧ s.seen slot = true
  | none => (s.joints slot).isValid = false ∧ s.seen slot = false

theorem Shows.seen_iff {s : Slots P} {slot : BodyJoint} {path : Option (List (Read P))}
    (h : Shows ops s slot path) : s.seen slot = path.isSome := by
  cases path with
  | none => exact h.2
  | some path => exact h.2

theorem endpoint_ne {slot last : BodyJoint} (h : endpoint slot = some last) : slot ≠ last := by
  cases slot <;> simp_all [endpoint] <;> rintro rfl <;> simp_all

theorem publishPath_own {s : Slots P} {path : List (Read P)} {slot : BodyJoint}
    (h : slotOf path = some slot) :
    (publishPath ops s path).joints slot = ⟨ops.publish (compose ops path), okOf path, path⟩ ∧
      (publishPath ops s path).seen slot = okOf path := by
  simp only [publishPath, h]
  split
  · simp [Slots.set]
  · rename_i last hlast
    have hne := endpoint_ne hlast
    split
    · simp [Slots.set]
    · simp [Slots.set, hne]

theorem publishPath_endpoint {s : Slots P} {path : List (Read P)} {slot : BodyJoint}
    (h : (slotOf path).bind endpoint = some slot) (hfree : s.seen slot = false) :
    (publishPath ops s path).joints slot = ⟨ops.publish (compose ops path), okOf path, path⟩ ∧
      (publishPath ops s path).seen slot = okOf path := by
  obtain ⟨own, hown, hlast⟩ := Option.bind_eq_some_iff.mp h
  have hne : slot ≠ own := (endpoint_ne hlast).symm
  simp [publishPath, hown, hlast, Slots.set, hne, hfree]

theorem publishPath_other {s : Slots P} {path : List (Read P)} {slot : BodyJoint}
    (hother : slotOf path ≠ some slot)
    (h : (slotOf path).bind endpoint = some slot → s.seen slot = true) :
    (publishPath ops s path).joints slot = s.joints slot ∧
      (publishPath ops s path).seen slot = s.seen slot := by
  simp only [publishPath]
  split
  · exact ⟨rfl, rfl⟩
  · rename_i own hown
    rw [hown] at hother h
    have hne : slot ≠ own := fun hsame => hother (by rw [hsame])
    split
    · simp [Slots.set, hne]
    · rename_i last hlast
      by_cases hslot : slot = last
      · subst hslot
        have hseen := h (by rw [Option.bind_some, hlast])
        simp [Slots.set, hne, hseen]
      · split
        · simp [Slots.set, hne]
        · simp [Slots.set, hne, hslot]

theorem filler_append_own {visits : List (List (Read P))} {path : List (Read P)} {slot : BodyJoint}
    (h : slotOf path = some slot) :
    filler (visits ++ [path]) slot = if okOf path then some path else none := by
  unfold filler
  rw [List.filter_append, List.rtakeWhile_concat_neg _ _ _ (by simp [h])]
  simp only [h, decide_true, List.filter_cons_of_pos, List.filter_nil, List.getLast?_concat,
    List.find?_nil, Option.or_none, Option.filter_some]

theorem filler_append_other {visits : List (List (Read P))} {path : List (Read P)}
    {slot : BodyJoint} (h : slotOf path ≠ some slot) :
    filler (visits ++ [path]) slot = (filler visits slot).or
      (if okOf path && (slotOf path).bind endpoint = some slot then some path else none) := by
  unfold filler
  rw [List.filter_append, List.rtakeWhile_concat_pos _ _ _ (by simpa using h), List.find?_append,
    List.filter_cons_of_neg (by simpa using h), List.filter_nil, List.append_nil, Option.or_assoc]
  congr 2
  rw [List.find?_cons]
  split <;> simp_all

/-- **The slots after a visit.** -/
theorem publish_filler (visits : List (List (Read P))) (slot : BodyJoint) :
    Shows ops (visits.foldl (publishPath ops) (blankSlots ops)) slot (filler visits slot) := by
  induction visits using List.reverseRecOn with
  | nil => exact ⟨rfl, rfl⟩
  | append_singleton visits path ih =>
    rw [List.foldl_append, List.foldl_cons, List.foldl_nil]
    generalize visits.foldl (publishPath ops) (blankSlots ops) = s at ih ⊢
    by_cases hown : slotOf path = some slot
    · obtain ⟨hjoints, hseen⟩ := publishPath_own ops (s := s) hown
      rw [filler_append_own hown]
      cases hok : okOf path with
      | true => exact ⟨by rw [hjoints, hok], by rw [hseen, hok]⟩
      | false => exact ⟨by rw [hjoints, hok], by rw [hseen, hok]⟩
    · rw [filler_append_other hown]
      by_cases hend : (slotOf path).bind endpoint = some slot ∧ s.seen slot = false
      · -- The wrist or ankle fills the slot, which had nothing valid.
        have hfree : filler visits slot = none := by
          rw [← Option.not_isSome_iff_eq_none, ← Shows.seen_iff ops ih, hend.2]
          simp
        obtain ⟨hjoints, hseen⟩ := publishPath_endpoint ops hend.1 hend.2
        rw [hfree, Option.none_or]
        cases hok : okOf path with
        | true =>
          rw [if_pos (by simp [hend.1])]
          exact ⟨by rw [hjoints, hok], by rw [hseen, hok]⟩
        | false => exact ⟨by rw [hjoints, hok], by rw [hseen, hok]⟩
      · have hkeep : (slotOf path).bind endpoint = some slot → s.seen slot = true := by
          intro hlast
          simpa [hlast] using hend
        obtain ⟨hjoints, hseen⟩ := publishPath_other ops hown hkeep
        have hfiller : (filler visits slot).or (if okOf path && (slotOf path).bind endpoint =
            some slot then some path else none) = filler visits slot := by
          by_cases hlast : (slotOf path).bind endpoint = some slot
          · have hsome := (Shows.seen_iff ops ih).symm.trans (hkeep hlast)
            obtain ⟨old, hold⟩ := Option.isSome_iff_exists.mp hsome
            rw [hold]
            rfl
          · simp [hlast]
        rw [hfiller]
        cases hold : filler visits slot with
        | none =>
          rw [hold] at ih
          exact ⟨by rw [hjoints]; exact ih.1, by rw [hseen]; exact ih.2⟩
        | some old =>
          rw [hold] at ih
          exact ⟨by rw [hjoints]; exact ih.1, by rw [hseen]; exact ih.2⟩

end Paths

/-! ### Pushed frames -/

section Frames

variable {P : Type} (ops : PoseOps P)

/-- The slots of an avatar. -/
def avatarSlots (root : Joint P) : Slots P :=
  (paths [] root).foldl (publishPath ops) (blankSlots ops)

theorem avatarSlots_seen (root : Joint P) (slot : BodyJoint) :
    (avatarSlots ops root).seen slot = (filler (paths [] root) slot).isSome :=
  Shows.seen_iff ops (publish_filler ops (paths [] root) slot)

theorem avatarSlots_isValid (root : Joint P) (slot : BodyJoint) :
    ((avatarSlots ops root).joints slot).isValid = (filler (paths [] root) slot).isSome := by
  have hshows := publish_filler ops (paths [] root) slot
  cases hfiller : filler (paths [] root) slot with
  | none =>
    rw [hfiller] at hshows
    exact hshows.1
  | some path =>
    rw [hfiller] at hshows
    exact congrArg BodyJointPose.isValid hshows.1

/-- The frame after an avatar with a root, and further ones without. -/
def lastFrame (root : Joint P) (post : List (Avatar P)) : Frame P where
  joints := if post.isEmpty then some (avatarSlots ops root).joints else none
  allJointPosesTracked := bodyJoints.all (avatarSlots ops root).seen

theorem handleAvatar_spec {frame f : Frame P} {avatar : Avatar P} {handled : Bool}
    (h : handleAvatar ops frame avatar = some (f, handled)) :
    (∃ root, avatar.root = some root ∧ handled = true ∧ f = lastFrame ops root []) ∨
      avatar.root = none ∧ handled = false ∧ f = { frame with joints := none } := by
  unfold handleAvatar at h
  split at h
  · cases h
  split at h
  · rename_i hroot
    cases h
    exact .inr ⟨hroot, rfl, rfl⟩
  · rename_i root hroot
    obtain ⟨s, hvisit, hs⟩ := Option.map_eq_some_iff.mp h
    have hslots : s = avatarSlots ops root := @visitJoint_eq _ ops _ _ [] _ hvisit
    cases hs
    exact .inl ⟨root, hroot, rfl, by rw [hslots]; rfl⟩

/-- **A loop over avatars**: the last one with a root, or none at all. -/
theorem handleAvatars_spec {frame f : Frame P} {shouldPush pushed : Bool}
    {avatars : List (Avatar P)}
    (h : handleAvatars ops frame shouldPush avatars = some (f, pushed)) :
    (∃ pre avatar root post, avatars = pre ++ avatar :: post ∧ avatar.root = some root ∧
      (∀ a ∈ post, a.root = none) ∧ f = lastFrame ops root post ∧ pushed = true) ∨
    (∀ a ∈ avatars, a.root = none) ∧ pushed = shouldPush ∧
      f = if avatars.isEmpty then frame else { frame with joints := none } := by
  induction avatars generalizing frame shouldPush with
  | nil =>
    cases h
    exact .inr ⟨by simp, rfl, rfl⟩
  | cons avatar avatars ih =>
    simp only [handleAvatars] at h
    split at h
    · rename_i frame' handled hhandle
      -- A later avatar with a root wins; otherwise this one decides.
      rcases ih h with ⟨pre, last, root, post, rfl, hroot, hpost, hf⟩ | ⟨hrest, hpushed, hf⟩
      · exact .inl ⟨avatar :: pre, last, root, post, rfl, hroot, hpost, hf⟩
      · rcases handleAvatar_spec ops hhandle with ⟨root, hroot, hhandled, rfl⟩ | ⟨hroot, rfl, rfl⟩
        · refine .inl ⟨[], avatar, root, avatars, rfl, hroot, hrest, ?_, by
            rw [hpushed, hhandled, Bool.true_or]⟩
          rw [hf]
          cases avatars with
          | nil => rfl
          | cons a avatars => rfl
        · refine .inr ⟨List.forall_mem_cons.mpr ⟨hroot, hrest⟩, hpushed, ?_⟩
          rw [hf]
          cases avatars with
          | nil => rfl
          | cons a avatars => rfl
    · cases h

/-- What a frame claims of the avatar with this root. -/
structure Complete (f : Frame P) (root : Joint P) : Prop where
  valid : ∀ joints slot, f.joints = some joints → (joints slot).isValid = true →
    (joints slot).source ∈ paths [] root ∧
    (slotOf (joints slot).source = some slot ∨
      (slotOf (joints slot).source).bind endpoint = some slot) ∧
    (∀ read ∈ (joints slot).source, read.poseOk = true) ∧
    (joints slot).pose = ops.publish (compose ops (joints slot).source)
  tracked : f.allJointPosesTracked = true ↔
    ∃ joints, f.joints = some joints ∧ ∀ slot, (joints slot).isValid = true

theorem filler_mem {visits : List (List (Read P))} {slot : BodyJoint} {path : List (Read P)}
    (h : filler visits slot = some path) :
    path ∈ visits ∧ (slotOf path = some slot ∨ (slotOf path).bind endpoint = some slot) := by
  rcases Option.or_eq_some_iff.mp h with hlast | ⟨-, hfind⟩
  · have hmem := List.mem_of_getLast? (Option.filter_eq_some_iff.mp hlast).1
    obtain ⟨hpath, hslot⟩ := List.mem_filter.mp hmem
    exact ⟨hpath, .inl (by simpa using hslot)⟩
  · have hpath := (List.rtakeWhile_suffix _ _).subset (List.mem_of_find?_eq_some hfind)
    have hslot := List.find?_some hfind
    simp only [Bool.and_eq_true, decide_eq_true_eq] at hslot
    exact ⟨hpath, .inr hslot.2⟩

theorem all_seen_iff (root : Joint P) :
    bodyJoints.all (avatarSlots ops root).seen = true ↔
      ∀ slot, (filler (paths [] root) slot).isSome = true := by
  rw [List.all_eq_true]
  constructor
  · intro hall slot
    rw [← avatarSlots_seen]
    exact hall slot (mem_bodyJoints slot)
  · intro hall slot _
    rw [avatarSlots_seen]
    exact hall slot

/-- A frame with the joints of an avatar. -/
theorem complete_joints_iff (root : Joint P) :
    Complete ops (lastFrame ops root []) root ↔
      ∀ slot path, filler (paths [] root) slot = some path → ∀ read ∈ path, read.poseOk = true := by
  -- A filled slot shows the composed path, whether or not its poses could be read.
  have hshows : ∀ slot path, filler (paths [] root) slot = some path →
      (avatarSlots ops root).joints slot = ⟨ops.publish (compose ops path), true, path⟩ := by
    intro slot path hfiller
    have h := publish_filler ops (paths [] root) slot
    rw [hfiller] at h
    exact h.1
  constructor
  · intro h slot path hfiller
    have hslot := hshows slot path hfiller
    have hvalid := (h.valid _ slot rfl (by rw [hslot])).2.2.1
    rwa [hslot] at hvalid
  · intro hsound
    refine ⟨fun joints slot hjoints hvalid => ?_, ?_⟩
    · obtain rfl := Option.some.inj hjoints
      rw [avatarSlots_isValid] at hvalid
      obtain ⟨path, hpath⟩ := Option.isSome_iff_exists.mp hvalid
      rw [hshows slot path hpath]
      exact ⟨(filler_mem hpath).1, (filler_mem hpath).2, hsound slot path hpath, rfl⟩
    · change bodyJoints.all (avatarSlots ops root).seen = true ↔ _
      rw [all_seen_iff]
      constructor
      · exact fun hall => ⟨_, rfl, fun slot => by rw [avatarSlots_isValid]; exact hall slot⟩
      · rintro ⟨joints, hjoints, hall⟩ slot
        obtain rfl := Option.some.inj hjoints
        rw [← avatarSlots_isValid ops]
        exact hall slot

/-- A frame whose joints were dropped for a later avatar without a root. -/
theorem complete_dropped_iff (root : Joint P) {post : List (Avatar P)} (hpost : post ≠ []) :
    Complete ops (lastFrame ops root post) root ↔
      ∃ slot, filler (paths [] root) slot = none := by
  -- The avatar behind the root has dropped its joints.
  have hnone : (lastFrame ops root post).joints = none := by
    cases post with
    | nil => exact absurd rfl hpost
    | cons a post => rfl
  have hflag : (lastFrame ops root post).allJointPosesTracked = true ↔
      ∀ slot, (filler (paths [] root) slot).isSome = true := all_seen_iff ops root
  constructor
  · intro h
    by_contra hall
    rw [not_exists] at hall
    obtain ⟨joints, hjoints, _⟩ := h.tracked.mp (hflag.mpr fun slot =>
      Option.isSome_iff_ne_none.mpr (hall slot))
    rw [hnone] at hjoints
    cases hjoints
  · rintro ⟨slot, hslot⟩
    refine ⟨fun joints slot hjoints => ?_, ?_⟩
    · rw [hnone] at hjoints
      cases hjoints
    · rw [hflag]
      constructor
      · intro hall
        have hsome := hall slot
        rw [hslot] at hsome
        cases hsome
      · rintro ⟨joints, hjoints, _⟩
        rw [hnone] at hjoints
        cases hjoints

end Frames

/-- **A pushed frame.**  It shows the last avatar with a root, of the events or, when none of these
has a root, of the avatars that were polled.  If no avatar without a root came
after it, the frame is complete exactly if no pose that stays in a slot has a local pose on its path
that was not read; otherwise its joints are dropped, and it is complete exactly if the avatar had
not been tracked completely. -/
theorem full_body_frame {P : Type} (ops : PoseOps P) (frame f : Frame P)
    (events polled : List (Avatar P)) (h : update ops frame events polled = some f) :
    ∃ pre avatar root post, (events = pre ++ avatar :: post ∨
        polled = pre ++ avatar :: post ∧ ∀ a ∈ events, a.root = none) ∧
      avatar.root = some root ∧ (∀ a ∈ post, a.root = none) ∧
      (Complete ops f root ↔
        (post = [] → ∀ slot path, filler (paths [] root) slot = some path →
          ∀ read ∈ path, read.poseOk = true) ∧
        (post ≠ [] → ∃ slot, filler (paths [] root) slot = none)) := by
  -- The loop that pushes, over the events or over the avatars that were polled.
  obtain ⟨avatars, before, hloop, hwhere⟩ : ∃ avatars before,
      handleAvatars ops before false avatars = some (f, true) ∧
        (avatars = events ∨ avatars = polled ∧ ∀ a ∈ events, a.root = none) := by
    unfold update at h
    split at h
    · cases h
    · rename_i hevents
      cases h
      exact ⟨events, frame, hevents, .inl rfl⟩
    · rename_i hevents
      split at h
      · rename_i hpolled
        cases h
        refine ⟨polled, _, hpolled, .inr ⟨rfl, ?_⟩⟩
        -- an event with a root would have pushed
        rcases handleAvatars_spec ops hevents with ⟨_, _, _, _, _, _, _, _, hpushed⟩ | ⟨hnone, -⟩
        · cases hpushed
        · exact hnone
      · cases h
  rcases handleAvatars_spec ops hloop with ⟨pre, avatar, root, post, hsplit, hroot, hpost, rfl, -⟩ |
    ⟨_, hpushed, _⟩
  · refine ⟨pre, avatar, root, post, ?_, hroot, hpost, ?_⟩
    · rcases hwhere with rfl | ⟨rfl, hnone⟩
      · exact .inl hsplit
      · exact .inr ⟨hsplit, hnone⟩
    · by_cases hlast : post = []
      · subst hlast
        rw [complete_joints_iff]
        simp
      · rw [complete_dropped_iff ops root hlast]
        simp [hlast]
  · cases hpushed

/-- Poses as the lists of what they are composed of. -/
def listOps : PoseOps (List ℕ) := ⟨[], (· ++ ·), id, []⟩

def emptyFrame : Frame (List ℕ) := ⟨none, false⟩

/-- A chain of joints with these names; the position of the first is read or not. -/
def chain (positionOk : Bool) : List String → Joints (List ℕ)
  | [] => .nil
  | name :: names =>
    .cons (.node ⟨true, some (lit name), positionOk, true, [names.length]⟩ false (chain true names))
      .nil

def chainAvatar (positionOk : Bool) (names : List String) : Avatar (List ℕ) where
  fails := false
  root :=
    match chain positionOk names with
    | .nil => none
    | .cons joint _ => some joint

/-- The spine under hips that were read. -/
theorem spine_under_hips : ∃ f, update listOps emptyFrame [chainAvatar true ["Hips", "Spine"]] [] =
    some f ∧ ∃ pre avatar root post,
      ([chainAvatar true ["Hips", "Spine"]] = pre ++ avatar :: post ∨ [] = pre ++ avatar :: post ∧
        ∀ a ∈ [chainAvatar true ["Hips", "Spine"]], a.root = none) ∧
      avatar.root = some root ∧ (∀ a ∈ post, a.root = none) ∧
      (Complete listOps f root ↔
        (post = [] → ∀ slot path, filler (paths [] root) slot = some path →
          ∀ read ∈ path, read.poseOk = true) ∧
        (post ≠ [] → ∃ slot, filler (paths [] root) slot = none)) :=
  ⟨_, rfl, full_body_frame listOps emptyFrame _ _ _ rfl⟩

def allNames : List String :=
  ["Hips", "LeftUpLeg", "RightUpLeg", "Spine", "LeftLeg", "RightLeg", "Spine1", "LeftFoot",
    "RightFoot", "Spine2", "Neck", "LeftShoulder", "RightShoulder", "Head", "LeftArm", "RightArm",
    "LeftForeArm", "RightForeArm", "LeftHand", "RightHand"]

/-- The spine is valid under hips whose position was not read; and the flag stays when a second
avatar without a root drops the joints. -/
theorem spine_under_unread_hips :
    ((update listOps emptyFrame [chainAvatar false ["Hips", "Spine"]] []).bind fun f =>
      f.joints.map fun joints =>
        ((joints .spine1).isValid, (joints .spine1).source.map Read.poseOk)) =
      some (true, [false, true]) ∧
    ((update listOps emptyFrame [chainAvatar true allNames, ⟨false, none⟩] []).map fun f =>
      (f.joints.isNone, f.allJointPosesTracked)) = some (true, true) := by
  decide

end NoitomFrames
