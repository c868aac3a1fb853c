/-
Draining the log receiver at exit.

Senders connect and write; the accept thread registers the connections; a thread for each of them
peeks, counts a frame as in flight, takes it off the socket, re-emits it and counts it back.
`_drain` holds `_drain_lock` while it looks at the count, the backlog and the sockets.  A step
below is one section under the lock or one call on a socket, and `_drain` takes a step for each
thing it looks at.

A frame is never off the socket and uncounted, so an idle receiver has handed on everything that
was written before, but for what stands behind the frame that ended its connection.

* `step`, `run` — the interleavings of the senders, the threads and `_drain`;
* `SocketInv`, `ReceiverInv` — where the bytes of a socket are, and what `_drain` knows;
* `idle_drain_handed` — what an idle receiver has handed to the logger tree.
-/
import IsaacTeleop.LogForwarding

namespace LogDrain

open LogForwarding ByteText

variable {φ : Type} [PyFloat φ] (interp : Interpreter φ)

/-! ### The receiver -/

/-- Where the handler thread of a connection stands.  The bytes that are off the socket and of no
finished frame are kept with it to the end. -/
inductive Phase
  | peeking
  /-- The peek found something; about to count it. -/
  | counting
  | header (buf : ByteText)
  | body (head buf : ByteText)
  | emitting (head text : ByteText)
  /-- About to count back, and to go on or to return. -/
  | uncounting (goesOn : Bool) (left : ByteText)
  /-- `handle` has returned; about to shut the request down. -/
  | returned (left : ByteText)
  deriving DecidableEq, Repr

inductive Place
  | absent
  | backlog
  | handled (phase : Phase)
  | gone (left : ByteText)
  deriving DecidableEq, Repr

structure Socket (φ : Type) where
  /-- All that the sender wrote. -/
  written : ByteText
  unread : ByteText
  hungUp : Bool
  place : Place
  /-- The bodies that have been handled. -/
  done : List ByteText
  /-- The records handed to the logger tree, with the number of their frame. -/
  log : List (ℕ × LogRecord φ)

/-- Where `_drain` stands; it holds the lock from `locked` to `tested`. -/
inductive Drain
  | notCalled
  | waiting
  | locked
  | polling
  | peeking (remaining : Finset ℕ)
  | tested (idle : Bool)
  | returned (idle : Bool)
  deriving DecidableEq

structure Receiver (φ : Type) where
  sockets : ℕ → Socket φ
  backlog : Finset ℕ
  /-- `_connections` -/
  registered : Finset ℕ
  inFlight : ℤ
  drain : Drain
  /-- What had been written when `_drain` was called. -/
  atCall : ℕ → ByteText

def init : Receiver φ where
  sockets _ := ⟨[], [], false, .absent, [], []⟩
  backlog := ∅
  registered := ∅
  inFlight := 0
  drain := .notCalled
  atCall _ := []

def Phase.left : Phase → ByteText
  | .peeking | .counting => []
  | .header buf => buf
  | .body head buf => head ++ buf
  | .emitting head text => head ++ text
  | .uncounting _ left | .returned left => left

def Place.left : Place → ByteText
  | .absent | .backlog => []
  | .handled phase => phase.left
  | .gone left => left

/-- A frame of this connection is in flight. -/
def Place.counted : Place → Bool
  | .handled (.header _) | .handled (.body _ _) | .handled (.emitting _ _)
  | .handled (.uncounting _ _) => true
  | _ => false

/-- What a step of a handler adds to `_in_flight`. -/
def Place.adds : Place → ℤ
  | .handled .counting => 1
  | .handled (.uncounting _ _) => -1
  | _ => 0

/-- The steps of a handler that take `_drain_lock`. -/
def Place.locks : Place → Bool
  | .handled .counting | .handled (.uncounting _ _) | .handled (.returned _) => true
  | _ => false

def Drain.holdsLock : Drain → Bool
  | .locked | .polling | .peeking _ | .tested _ => true
  | .notCalled | .waiting | .returned _ => false

/-! ### The threads -/

namespace Socket

variable (socket : Socket φ)

/-- A turn of `_recv_exact` that is not finished: a read of some bytes, or the end of the
stream. -/
def recv (size missing : ℕ) (taken : ByteText → Phase) (ended : Phase) : Option (Socket φ) :=
  if socket.unread ≠ [] then
    if 1 ≤ size ∧ size ≤ missing then
      some { socket with
        unread := socket.unread.drop size
        place := .handled (taken (socket.unread.take size)) }
    else none
  else if socket.hungUp then some { socket with place := .handled ended }
  else none

/-- `_handle_frame` with a whole body. -/
def emit (body : ByteText) : Socket φ :=
  { socket with
    done := socket.done ++ [body]
    log := socket.log ++ (reemit interp body).1.toList.map (socket.done.length, ·)
    place := .handled (.uncounting (Connection.escaped interp body).isNone []) }

/-- The next step of a handler, `size` being the length of what a read brings. -/
def handlerStep (size : ℕ) : Option (Socket φ) :=
  match socket.place with
  | .handled .peeking =>
    if socket.unread ≠ [] then some { socket with place := .handled .counting }
    else if socket.hungUp then some { socket with place := .handled (.returned []) }
    else none
  | .handled .counting => some { socket with place := .handled (.header []) }
  | .handled (.header buf) =>
    if buf.length < 4 then
      socket.recv size (4 - buf.length) (fun chunk => .header (buf ++ chunk))
        (.uncounting false buf)
    else if maxFrameSize < unpack buf then
      some { socket with place := .handled (.uncounting false buf) }
    else some { socket with place := .handled (.body buf []) }
  | .handled (.body head buf) =>
    if buf.length < unpack head then
      socket.recv size (unpack head - buf.length) (fun chunk => .body head (buf ++ chunk))
        (.uncounting false (head ++ buf))
    else some { socket with place := .handled (.emitting head buf) }
  | .handled (.emitting _ text) => some (socket.emit interp text)
  | .handled (.uncounting true _) => some { socket with place := .handled .peeking }
  | .handled (.uncounting false left) => some { socket with place := .handled (.returned left) }
  | .handled (.returned left) => some { socket with place := .gone left }
  | .absent | .backlog | .gone _ => none

end Socket

inductive DrainStep
  | call
  | lock
  | readCount
  | poll
  | peek (c : ℕ)
  | peekedAll
  /-- Give the lock back; `late` says that the deadline has passed. -/
  | unlock (late : Bool)
  deriving DecidableEq, Repr

inductive Event
  | connect (c : ℕ)
  | write (c : ℕ) (bytes : ByteText)
  | hangUp (c : ℕ)
  | accept (c : ℕ)
  | handler (c size : ℕ)
  | drain (step : DrainStep)
  deriving DecidableEq, Repr

namespace Receiver

variable (s : Receiver φ)

def update (c : ℕ) (socket : Socket φ) : Receiver φ :=
  { s with sockets := Function.update s.sockets c socket }

def connect (c : ℕ) : Option (Receiver φ) :=
  if (s.sockets c).place = .absent then
    some { s.update c { s.sockets c with place := .backlog } with backlog := insert c s.backlog }
  else none

/-- A write; the socket must be connected and neither end closed. -/
def write (c : ℕ) (bytes : ByteText) : Option (Receiver φ) :=
  if (s.sockets c).hungUp then none
  else
    match (s.sockets c).place with
    | .absent | .gone _ => none
    | .backlog | .handled _ =>
      some (s.update c { s.sockets c with
        written := (s.sockets c).written ++ bytes
        unread := (s.sockets c).unread ++ bytes })

def hangUp (c : ℕ) : Option (Receiver φ) :=
  if (s.sockets c).place = .absent then none
  else some (s.update c { s.sockets c with hungUp := true })

/-- `get_request`: accept and register, as one step under the lock. -/
def accept (c : ℕ) : Option (Receiver φ) :=
  if s.drain.holdsLock = false ∧ (s.sockets c).place = .backlog then
    some { s.update c { s.sockets c with place := .handled .peeking } with
      backlog := s.backlog.erase c
      registered := insert c s.registered }
  else none

/-- A step of a handler thread, with what it does to `_in_flight` and `_connections`. -/
def handler (c size : ℕ) : Option (Receiver φ) :=
  if s.drain.holdsLock = true ∧ (s.sockets c).place.locks = true then none
  else
    match (s.sockets c).handlerStep interp size with
    | none => none
    | some socket =>
      some { s.update c socket with
        inFlight := s.inFlight + (s.sockets c).place.adds
        registered :=
          match (s.sockets c).place with
          | .handled (.returned _) => s.registered.erase c
          | _ => s.registered }

def drainStep : DrainStep → Option (Receiver φ)
  | .call =>
    if s.drain = .notCalled then
      some { s with drain := .waiting, atCall := fun c => (s.sockets c).written }
    else none
  | .lock => if s.drain = .waiting then some { s with drain := .locked } else none
  | .readCount =>
    if s.drain = .locked then
      some { s with drain := if s.inFlight = 0 then .polling else .tested false }
    else none
  | .poll =>
    if s.drain = .polling then
      some { s with drain := if s.backlog = ∅ then .peeking s.registered else .tested false }
    else none
  | .peek c =>
    match s.drain with
    | .peeking remaining =>
      if c ∈ remaining then
        some { s with
          drain :=
            if (s.sockets c).unread ≠ [] then .tested false else .peeking (remaining.erase c) }
      else none
    | _ => none
  | .peekedAll => if s.drain = .peeking ∅ then some { s with drain := .tested true } else none
  | .unlock late =>
    match s.drain with
    | .tested idle =>
      some { s with drain := if idle then .returned true else if late then .returned false
                             else .waiting }
    | _ => none

def step (s : Receiver φ) : Event → Option (Receiver φ)
  | .connect c => s.connect c
  | .write c bytes => s.write c bytes
  | .hangUp c => s.hangUp c
  | .accept c => s.accept c
  | .handler c size => s.handler interp c size
  | .drain step => s.drainStep step

def run (s : Receiver φ) : List Event → Option (Receiver φ)
  | [] => some s
  | event :: events => (s.step interp event).bind fun s' => s'.run events

end Receiver

/-! ### Frames in a stream -/

theorem pack_unpack {head : ByteText} (h : head.length = 4) : pack (unpack head) = head := by
  obtain ⟨a, b, c, d, rfl⟩ : ∃ a b c d, head = [a, b, c, d] := by
    match head, h with
    | [a, b, c, d], _ => exact ⟨a, b, c, d, rfl⟩
  have ha := a.toNat_lt
  have hb := b.toNat_lt
  have hc := c.toNat_lt
  have hd := d.toNat_lt
  simp only [unpack, pack, List.foldl_cons, List.foldl_nil, List.cons.injEq, and_true]
  refine ⟨?_, ?_, ?_, ?_⟩ <;>
    · rw [← UInt8.toNat_inj, UInt8.toNat_ofNat']
      omega

theorem unpack_pack_of_le {body : ByteText} (h : body.length ≤ maxFrameSize) :
    unpack (pack body.length) = body.length :=
  unpack_pack (h.trans_lt (by decide))

/-- Frames of the bounded size are read in one way only. -/
theorem frame_append_inj {x y r t : ByteText} (hx : x.length ≤ maxFrameSize)
    (hy : y.length ≤ maxFrameSize) (h : frame x ++ r = frame y ++ t) : x = y ∧ r = t := by
  simp only [frame, List.append_assoc] at h
  obtain ⟨hhead, hrest⟩ := List.append_inj h rfl
  have hlength : x.length = y.length := by
    rw [← unpack_pack_of_le hx, ← unpack_pack_of_le hy, hhead]
  exact List.append_inj hrest hlength

/-- Of two ways to read a stream, one goes on where the other ends. -/
theorem frames_compare {xs ys : List ByteText} (hx : ∀ b ∈ xs, b.length ≤ maxFrameSize)
    (hy : ∀ b ∈ ys, b.length ≤ maxFrameSize) {r t : ByteText}
    (h : xs.flatMap frame ++ r = ys.flatMap frame ++ t) :
    xs <+: ys ∨ ∃ b more, ys ++ [b] <+: xs ∧ t = frame b ++ more := by
  induction xs generalizing ys with
  | nil => exact .inl List.nil_prefix
  | cons x xs ih =>
    cases ys with
    | nil =>
      refine .inr ⟨x, xs.flatMap frame ++ r, by simp, ?_⟩
      simpa using h.symm
    | cons y ys =>
      simp only [List.flatMap_cons, List.append_assoc] at h
      obtain ⟨rfl, hrest⟩ := frame_append_inj (hx x List.mem_cons_self) (hy y List.mem_cons_self) h
      rcases ih (fun b hb => hx b (List.mem_cons_of_mem x hb))
        (fun b hb => hy b (List.mem_cons_of_mem x hb)) hrest with hpre | ⟨b, more, hpre, ht⟩
      · exact .inl (List.cons_prefix_cons.mpr ⟨rfl, hpre⟩)
      · exact .inr ⟨b, more, List.cons_prefix_cons.mpr ⟨rfl, hpre⟩, ht⟩

/-- No frame of the bounded size stands at the front. -/
def NoFrame (bytes : ByteText) : Prop :=
  ∀ body rest, body.length ≤ maxFrameSize → bytes ≠ frame body ++ rest

theorem noFrame_of_short {bytes : ByteText} (h : bytes.length < 4) : NoFrame bytes := by
  rintro body rest - rfl
  simp only [frame, pack, List.length_append, List.length_cons] at h
  omega

theorem noFrame_of_oversize {head : ByteText} (hhead : head.length = 4)
    (h : maxFrameSize < unpack head) (rest : ByteText) : NoFrame (head ++ rest) := by
  intro body rest' hbody heq
  rw [frame, List.append_assoc] at heq
  obtain ⟨rfl, _⟩ := List.append_inj heq hhead
  rw [unpack_pack_of_le hbody] at h
  omega

theorem noFrame_of_truncated {head buf : ByteText} (hhead : head.length = 4)
    (h : buf.length < unpack head) : NoFrame (head ++ buf) := by
  intro body rest hbody heq
  rw [frame, List.append_assoc] at heq
  obtain ⟨rfl, rfl⟩ := List.append_inj heq hhead
  rw [unpack_pack_of_le hbody, List.length_append] at h
  omega

/-! ### A socket -/

/-- Nothing more will come of a connection: a body has ended it, or no frame is left. -/
def Stuck (socket : Socket φ) (left : ByteText) : Prop :=
  (∃ body ∈ socket.done, Connection.escaped interp body ≠ none) ∨
    ∀ more, (socket.hungUp = true → more = []) → NoFrame (left ++ socket.unread ++ more)

def PlaceOk (socket : Socket φ) : Place → Prop
  | .absent => socket.written = []
  | .backlog | .handled .peeking | .handled .counting => True
  | .handled (.header buf) => buf.length ≤ 4
  | .handled (.body head buf) =>
    head.length = 4 ∧ unpack head ≤ maxFrameSize ∧ buf.length ≤ unpack head
  | .handled (.emitting head text) => head = pack text.length ∧ text.length ≤ maxFrameSize
  | .handled (.uncounting true left) => left = []
  | .handled (.uncounting false left) | .handled (.returned left) | .gone left =>
    Stuck interp socket left

/-- A place stays in order as long as what is stuck stays so. -/
theorem PlaceOk.mono {socket socket' : Socket φ} {place : Place}
    (h : PlaceOk interp socket place)
    (habsent : place = .absent → socket.written = [] → socket'.written = [])
    (hstuck : ∀ left, Stuck interp socket left → Stuck interp socket' left) :
    PlaceOk interp socket' place := by
  cases place with
  | absent => exact habsent rfl h
  | backlog => trivial
  | gone left => exact hstuck left h
  | handled phase =>
    cases phase with
    | peeking | counting => trivial
    | header buf | body head buf | emitting head text => exact h
    | returned left => exact hstuck left h
    | uncounting goesOn left =>
      cases goesOn with
      | true => exact h
      | false => exact hstuck left h

/-- Where the bytes of a socket are, and what has been handed on. -/
structure SocketInv (socket : Socket φ) : Prop where
  split : socket.written = socket.done.flatMap frame ++ (socket.place.left ++ socket.unread)
  sizes : ∀ body ∈ socket.done, body.length ≤ maxFrameSize
  logged : ∀ i body record, socket.done[i]? = some body →
    (reemit interp body).1 = some record → (i, record) ∈ socket.log
  placeOk : PlaceOk interp socket socket.place

/-- A step that leaves the bytes and the bodies where they are. -/
theorem SocketInv.move {socket : Socket φ} (h : SocketInv interp socket) {place : Place}
    (hleft : place.left = socket.place.left) (hplace : PlaceOk interp socket place) :
    SocketInv interp { socket with place := place } where
  split := by
    rw [h.split, ← hleft]
  sizes := h.sizes
  logged := h.logged
  placeOk := hplace.mono interp (fun _ hwritten => hwritten) (fun _ hstuck => hstuck)

omit [PyFloat φ] in
theorem recv_cases {socket socket' : Socket φ} {size missing : ℕ} {taken : ByteText → Phase}
    {ended : Phase} (h : socket.recv size missing taken ended = some socket') :
    (size ≤ missing ∧ socket' = { socket with
        unread := socket.unread.drop size
        place := .handled (taken (socket.unread.take size)) }) ∨
      (socket.unread = [] ∧ socket.hungUp = true ∧
        socket' = { socket with place := .handled ended }) := by
  unfold Socket.recv at h
  split at h
  · split at h
    · rename_i hsize
      exact .inl ⟨hsize.2, (Option.some.inj h).symm⟩
    · cases h
  · rename_i hunread
    split at h
    · rename_i hhung
      exact .inr ⟨by simpa using hunread, hhung, (Option.some.inj h).symm⟩
    · cases h

/-- Bytes move from the socket into the buffer of the handler. -/
theorem SocketInv.take {socket : Socket φ} (h : SocketInv interp socket) {size : ℕ} {place : Place}
    (hleft : place.left = socket.place.left ++ socket.unread.take size)
    (hplace : PlaceOk interp { socket with unread := socket.unread.drop size, place := place }
      place) :
    SocketInv interp { socket with unread := socket.unread.drop size, place := place } where
  split := by
    show socket.written = socket.done.flatMap frame ++ (place.left ++ socket.unread.drop size)
    rw [hleft, List.append_assoc, List.take_append_drop]
    exact h.split
  sizes := h.sizes
  logged := h.logged
  placeOk := hplace

/-- A stream that has ended in the middle of a frame. -/
theorem stuck_of_ended {socket : Socket φ} {left : ByteText} (hunread : socket.unread = [])
    (hhung : socket.hungUp = true) (hleft : NoFrame left) : Stuck interp socket left := by
  refine .inr fun more hmore => ?_
  rw [hunread, hmore hhung, List.append_nil, List.append_nil]
  exact hleft

theorem SocketInv.header {socket socket' : Socket φ} (h : SocketInv interp socket)
    {buf : ByteText} (hplace : socket.place = .handled (.header buf)) {size : ℕ}
    (hstep : socket.handlerStep interp size = some socket') : SocketInv interp socket' := by
  have hok := h.placeOk
  rw [hplace] at hok
  have hbuf : buf.length ≤ 4 := hok
  rw [Socket.handlerStep, hplace] at hstep
  simp only at hstep
  split at hstep
  · rename_i hshort
    rcases recv_cases hstep with ⟨hsize, rfl⟩ | ⟨hunread, hhung, rfl⟩
    · refine h.take interp (by rw [hplace]; rfl) ?_
      show (buf ++ socket.unread.take size).length ≤ 4
      have htake := List.length_take_le size socket.unread
      rw [List.length_append]
      omega
    · refine h.move interp (by rw [hplace]; rfl) ?_
      exact stuck_of_ended interp hunread hhung (noFrame_of_short hshort)
  · have hfull : buf.length = 4 := by omega
    split at hstep
    · -- A header that announces too much ends the connection, and no frame can begin there.
      rename_i hover
      obtain rfl := Option.some.inj hstep
      refine h.move interp (by rw [hplace]; rfl) (.inr fun more _ => ?_)
      rw [List.append_assoc]
      exact noFrame_of_oversize hfull hover _
    · rename_i hbound
      obtain rfl := Option.some.inj hstep
      refine h.move interp (by rw [hplace]; exact List.append_nil buf) ⟨hfull, by omega, ?_⟩
      exact Nat.zero_le _

theorem SocketInv.body {socket socket' : Socket φ} (h : SocketInv interp socket)
    {head buf : ByteText} (hplace : socket.place = .handled (.body head buf)) {size : ℕ}
    (hstep : socket.handlerStep interp size = some socket') : SocketInv interp socket' := by
  have hok := h.placeOk
  rw [hplace] at hok
  obtain ⟨hhead, hbound, hbuf⟩ := hok
  rw [Socket.handlerStep, hplace] at hstep
  simp only at hstep
  split at hstep
  · rename_i hshort
    rcases recv_cases hstep with ⟨hsize, rfl⟩ | ⟨hunread, hhung, rfl⟩
    · refine h.take interp (by rw [hplace]; exact (List.append_assoc _ _ _).symm) ?_
      refine ⟨hhead, hbound, ?_⟩
      have htake := List.length_take_le size socket.unread
      rw [List.length_append]
      omega
    · refine h.move interp (by rw [hplace]; rfl) ?_
      exact stuck_of_ended interp hunread hhung (noFrame_of_truncated hhead hshort)
  · have hfull : buf.length = unpack head := by omega
    obtain rfl := Option.some.inj hstep
    refine h.move interp (by rw [hplace]; rfl) ⟨?_, by omega⟩
    rw [hfull, pack_unpack hhead]

/-- A body is handled: it is handed on if it has a record, and it may end the connection. -/
theorem SocketInv.emit {socket : Socket φ} (h : SocketInv interp socket) {head text : ByteText}
    (hplace : socket.place = .handled (.emitting head text)) :
    SocketInv interp (socket.emit interp text) := by
  have hok := h.placeOk
  rw [hplace] at hok
  obtain ⟨rfl, hsize⟩ := hok
  refine ⟨?_, ?_, ?_, ?_⟩
  · have hsplit := h.split
    rw [hplace] at hsplit
    simpa [Socket.emit, Place.left, Phase.left, frame] using hsplit
  · intro body hbody
    rcases List.mem_append.mp hbody with hold | hnew
    · exact h.sizes body hold
    · obtain rfl := List.mem_singleton.mp hnew
      exact hsize
  · intro i body record hi hrecord
    simp only [Socket.emit] at hi ⊢
    -- A body handled earlier, or the one just handled.
    rcases Nat.lt_or_ge i socket.done.length with hlt | hge
    · rw [List.getElem?_append_left hlt] at hi
      exact List.mem_append_left _ (h.logged i body record hi hrecord)
    · rw [List.getElem?_append_right hge] at hi
      obtain ⟨hzero, rfl⟩ : i - socket.done.length = 0 ∧ text = body := by
        simpa [List.getElem?_singleton] using hi
      refine List.mem_append_right _ ?_
      simp only [hrecord, Option.toList_some, List.map_cons, List.map_nil, List.mem_singleton,
        Prod.mk.injEq, and_true]
      omega
  · cases hescaped : Connection.escaped interp text with
    | none => simp [Socket.emit, hescaped, PlaceOk]
    | some error =>
      simp only [Socket.emit, hescaped, Option.isNone_some, PlaceOk]
      exact .inl ⟨text, by simp, by simp [hescaped]⟩

theorem SocketInv.handlerStep {socket socket' : Socket φ} (h : SocketInv interp socket) {size : ℕ}
    (hstep : socket.handlerStep interp size = some socket') : SocketInv interp socket' := by
  have hok := h.placeOk
  cases hplace : socket.place with
  | absent | backlog | gone left =>
    rw [Socket.handlerStep, hplace] at hstep
    cases hstep
  | handled phase =>
    rw [hplace] at hok
    cases phase with
    | header buf => exact h.header interp hplace hstep
    | body head buf => exact h.body interp hplace hstep
    | peeking =>
      rw [Socket.handlerStep, hplace] at hstep
      simp only at hstep
      split at hstep
      · obtain rfl := Option.some.inj hstep
        exact h.move interp (by rw [hplace]; rfl) trivial
      · rename_i hunread
        split at hstep
        · rename_i hhung
          obtain rfl := Option.some.inj hstep
          refine h.move interp (by rw [hplace]; rfl) ?_
          -- The peer has hung up and nothing is unread, so there is no frame left.
          exact stuck_of_ended interp (by simpa using hunread) hhung (noFrame_of_short (by simp))
        · cases hstep
    | counting =>
      rw [Socket.handlerStep, hplace] at hstep
      obtain rfl := Option.some.inj hstep
      exact h.move interp (by rw [hplace]; rfl) (Nat.zero_le _)
    | emitting head text =>
      rw [Socket.handlerStep, hplace] at hstep
      obtain rfl := Option.some.inj hstep
      exact h.emit interp hplace
    | uncounting goesOn left =>
      rw [Socket.handlerStep, hplace] at hstep
      cases goesOn with
      | true =>
        obtain rfl := Option.some.inj hstep
        have hnil : left = [] := hok
        exact h.move interp (by rw [hplace, hnil]; rfl) trivial
      | false =>
        obtain rfl := Option.some.inj hstep
        exact h.move interp (by rw [hplace]; rfl) hok
    | returned left =>
      rw [Socket.handlerStep, hplace] at hstep
      obtain rfl := Option.some.inj hstep
      exact h.move interp (by rw [hplace]; rfl) hok

theorem SocketInv.write {socket : Socket φ} (h : SocketInv interp socket)
    (hhung : socket.hungUp = false) (habsent : socket.place ≠ .absent) (bytes : ByteText) :
    SocketInv interp { socket with
      written := socket.written ++ bytes
      unread := socket.unread ++ bytes } where
  split := by
    show socket.written ++ bytes =
      socket.done.flatMap frame ++ (socket.place.left ++ (socket.unread ++ bytes))
    rw [h.split]
    simp only [List.append_assoc]
  sizes := h.sizes
  logged := h.logged
  placeOk := by
    have hok := h.placeOk
    -- What no frame starts in does not get one by what comes after it.
    have hstuck : ∀ left, Stuck interp socket left → Stuck interp { socket with
        written := socket.written ++ bytes, unread := socket.unread ++ bytes } left := by
      rintro left (hraised | hframe)
      · exact .inl hraised
      · refine .inr fun more _ => ?_
        have hmore := hframe (bytes ++ more) (by simp [hhung])
        simpa only [List.append_assoc] using hmore
    exact hok.mono interp (fun hplace => absurd hplace habsent) hstuck

theorem SocketInv.hangUp {socket : Socket φ} (h : SocketInv interp socket) :
    SocketInv interp { socket with hungUp := true } where
  split := h.split
  sizes := h.sizes
  logged := h.logged
  placeOk := by
    have hok := h.placeOk
    have hstuck : ∀ left, Stuck interp socket left →
        Stuck interp { socket with hungUp := true } left := by
      rintro left (hraised | hframe)
      · exact .inl hraised
      · refine .inr fun more hmore => ?_
        have hnil : more = [] := hmore rfl
        exact hframe more fun _ => hnil
    exact hok.mono interp (fun _ hwritten => hwritten) hstuck

/-- **What is written and not in the socket has been handed on**, when the handler is between two
frames or has ended the connection. -/
theorem SocketInv.handed {socket : Socket φ} (h : SocketInv interp socket)
    (hsettled : socket.place.left ++ socket.unread = [] ∨ Stuck interp socket socket.place.left)
    {before : List ByteText} {body rest : ByteText} {record : LogRecord φ}
    (hwritten : (before ++ [body]).flatMap frame ++ rest <+: socket.written)
    (hsizes : ∀ b ∈ before ++ [body], b.length ≤ maxFrameSize)
    (hharmless : ∀ b ∈ before, Harmless interp b) (hvalid : ValidRecord interp body record) :
    (before.length, record) ∈ socket.log := by
  obtain ⟨more, hmore⟩ := hwritten
  rw [h.split, List.append_assoc] at hmore
  rcases frames_compare hsizes h.sizes hmore with hpre | ⟨b, after, hpre, htail⟩
  · -- All these frames are done.
    obtain ⟨others, hothers⟩ := hpre
    refine h.logged _ body record ?_ (reemit_of_valid interp hvalid)
    rw [← hothers]
    simp
  · exfalso
    have hb : b.length ≤ maxFrameSize := hsizes b (hpre.subset (by simp))
    rcases hsettled with hnil | hraised | hframe
    · rw [hnil] at htail
      simp [frame, pack] at htail
    · -- The body that raised stands before the frame in question.
      obtain ⟨raised, hmem, hescaped⟩ := hraised
      have hbefore : socket.done <+: before := by
        have hlength := hpre.length_le
        simp only [List.length_append, List.length_singleton] at hlength
        have hdone : socket.done <+: before ++ [body] := (List.prefix_append _ [b]).trans hpre
        exact List.prefix_of_prefix_length_le hdone (List.prefix_append before [body]) (by omega)
      exact hescaped ((Connection.escaped_eq_none_iff interp raised).mpr
        (hharmless raised (hbefore.subset hmem)))
    · have hnone := hframe [] (fun _ => rfl)
      rw [List.append_nil] at hnone
      exact hnone b after hb htail

/-! ### The receiver's invariant -/

namespace Receiver

/-- What was written to a connection when `_drain` was called has been handed on. -/
def Settled (s : Receiver φ) (c : ℕ) : Prop :=
  ∀ before body rest record, s.atCall c = (before ++ [body]).flatMap frame ++ rest →
    (∀ b ∈ before ++ [body], b.length ≤ maxFrameSize) → (∀ b ∈ before, Harmless interp b) →
    ValidRecord interp body record → (before.length, record) ∈ (s.sockets c).log

/-- What `_drain` knows at each place. -/
def DrainOk (s : Receiver φ) : Drain → Prop
  | .polling => s.inFlight = 0
  | .peeking remaining =>
    s.inFlight = 0 ∧ remaining ⊆ s.registered ∧ ∀ c, c ∉ remaining → s.Settled interp c
  | .tested true | .returned true => ∀ c, s.Settled interp c
  | _ => True

end Receiver

/-- How much a connection contributes to `_in_flight`. -/
def Place.inFlight (place : Place) : ℤ := if place.counted then 1 else 0

structure ReceiverInv (s : Receiver φ) : Prop where
  sockets : ∀ c, SocketInv interp (s.sockets c)
  backlog_iff : ∀ c, c ∈ s.backlog ↔ (s.sockets c).place = .backlog
  registered_iff : ∀ c, c ∈ s.registered ↔ ∃ phase, (s.sockets c).place = .handled phase
  inFlight_eq : s.inFlight = ∑ c ∈ s.registered, (s.sockets c).place.inFlight
  atCall_written : ∀ c, s.atCall c <+: (s.sockets c).written
  drainOk : s.DrainOk interp s.drain

theorem receiverInv_init : ReceiverInv interp (init : Receiver φ) where
  sockets c := by
    refine ⟨rfl, ?_, ?_, rfl⟩
    · simp [init]
    · simp [init]
  backlog_iff c := by simp [init]
  registered_iff c := by simp [init]
  inFlight_eq := by simp [init]
  atCall_written c := List.nil_prefix
  drainOk := trivial

/-- A connection settles once nothing of it is under way. -/
theorem ReceiverInv.settled {s : Receiver φ} (h : ReceiverInv interp s) {c : ℕ}
    (hsettled : (s.sockets c).place.left ++ (s.sockets c).unread = [] ∨
      Stuck interp (s.sockets c) (s.sockets c).place.left) : s.Settled interp c := by
  intro before body rest record hwritten hsizes hharmless hvalid
  have hpre := h.atCall_written c
  rw [hwritten] at hpre
  exact (h.sockets c).handed interp hsettled hpre hsizes hharmless hvalid

/-- With the count at zero, no connection has a frame in flight. -/
theorem ReceiverInv.not_counted {s : Receiver φ} (h : ReceiverInv interp s)
    (hzero : s.inFlight = 0) {c : ℕ} (hc : c ∈ s.registered) :
    (s.sockets c).place.counted = false := by
  have hnonneg : ∀ d ∈ s.registered, 0 ≤ (s.sockets d).place.inFlight := by
    intro d _
    unfold Place.inFlight
    split <;> simp
  have hsum := h.inFlight_eq
  rw [hzero] at hsum
  have hterm := (Finset.sum_eq_zero_iff_of_nonneg hnonneg).mp hsum.symm c hc
  unfold Place.inFlight at hterm
  split at hterm
  · simp at hterm
  · rename_i hcounted
    simpa using hcounted

/-- Nothing unread and nothing in flight: the connection has settled. -/
theorem ReceiverInv.settled_of_peek {s : Receiver φ} (h : ReceiverInv interp s)
    (hzero : s.inFlight = 0) {c : ℕ} (hc : c ∈ s.registered)
    (hunread : (s.sockets c).unread = []) : s.Settled interp c := by
  have hcounted := h.not_counted interp hzero hc
  have hok := (h.sockets c).placeOk
  obtain ⟨phase, hphase⟩ := (h.registered_iff c).mp hc
  refine h.settled interp ?_
  rw [hunread, hphase]
  rw [hphase] at hcounted hok
  cases phase with
  | peeking | counting => exact .inl rfl
  | returned left => exact .inr hok
  | header buf | body head buf | emitting head text | uncounting goesOn left => cases hcounted

/-- A connection that is neither in the backlog nor registered has settled. -/
theorem ReceiverInv.settled_of_absent {s : Receiver φ} (h : ReceiverInv interp s)
    (hbacklog : s.backlog = ∅) {c : ℕ} (hc : c ∉ s.registered) : s.Settled interp c := by
  have hok := (h.sockets c).placeOk
  cases hplace : (s.sockets c).place with
  | absent =>
    rw [hplace] at hok
    have hsplit := (h.sockets c).split
    rw [show (s.sockets c).written = [] from hok] at hsplit
    refine h.settled interp (.inl ?_)
    simpa using (List.append_eq_nil_iff.mp hsplit.symm).2
  | backlog =>
    have hmem := (h.backlog_iff c).mpr hplace
    simp [hbacklog] at hmem
  | handled phase => exact absurd ((h.registered_iff c).mpr ⟨phase, hplace⟩) hc
  | gone left =>
    rw [hplace] at hok
    refine h.settled interp (.inr ?_)
    rw [hplace]
    exact hok

/-! ### The steps of the threads -/

namespace Receiver

/-- The logs and the streams only grow, and `_drain` is left alone. -/
structure Grows (s s' : Receiver φ) : Prop where
  written : ∀ c, (s.sockets c).written <+: (s'.sockets c).written
  log : ∀ c, (s.sockets c).log ⊆ (s'.sockets c).log
  drain : s'.drain = s.drain
  atCall : s'.atCall = s.atCall
  /-- While `_drain` holds the lock, nobody counts or registers. -/
  locked : s.drain.holdsLock = true → s'.inFlight = s.inFlight ∧ s'.registered = s.registered

theorem Settled.grows {s s' : Receiver φ} {c : ℕ} (h : s.Settled interp c) (hs : s.Grows s') :
    s'.Settled interp c := by
  intro before body rest record hwritten hsizes hharmless hvalid
  rw [hs.atCall] at hwritten
  exact hs.log c (h before body rest record hwritten hsizes hharmless hvalid)

theorem DrainOk.grows {s s' : Receiver φ} (h : s.DrainOk interp s.drain) (hs : s.Grows s') :
    s'.DrainOk interp s'.drain := by
  rw [hs.drain]
  have hlocked := hs.locked
  -- Under the lock nothing new is registered; afterwards what is settled stays settled.
  cases hdrain : s.drain with
  | polling =>
    rw [hdrain] at h hlocked
    exact (hlocked rfl).1.trans h
  | peeking remaining =>
    rw [hdrain] at h hlocked
    obtain ⟨hzero, hsubset, hsettled⟩ := h
    obtain ⟨hinFlight, hregistered⟩ := hlocked rfl
    exact ⟨hinFlight.trans hzero, hregistered ▸ hsubset,
      fun c hc => (hsettled c hc).grows interp hs⟩
  | tested idle =>
    rw [hdrain] at h
    cases idle with
    | true => exact fun c => (h c).grows interp hs
    | false => trivial
  | returned idle =>
    rw [hdrain] at h
    cases idle with
    | true => exact fun c => (h c).grows interp hs
    | false => trivial
  | notCalled | waiting | locked => trivial

omit [PyFloat φ] in
/-- A step of one connection. -/
theorem grows_update {s s' : Receiver φ} {c : ℕ} {socket : Socket φ}
    (hsockets : s'.sockets = Function.update s.sockets c socket)
    (hwritten : (s.sockets c).written <+: socket.written)
    (hlog : (s.sockets c).log ⊆ socket.log) (hdrain : s'.drain = s.drain)
    (hatCall : s'.atCall = s.atCall)
    (hlocked : s.drain.holdsLock = true → s'.inFlight = s.inFlight ∧ s'.registered = s.registered) :
    s.Grows s' := by
  refine ⟨fun d => ?_, fun d => ?_, hdrain, hatCall, hlocked⟩
  · rw [hsockets]
    by_cases hd : d = c
    · subst hd
      rwa [Function.update_self]
    · rw [Function.update_of_ne hd]
  · rw [hsockets]
    by_cases hd : d = c
    · subst hd
      rwa [Function.update_self]
    · rw [Function.update_of_ne hd]
      exact List.Subset.refl _

end Receiver

theorem Place.inFlight_of_not_handled {place : Place} (h : ¬ ∃ phase, place = .handled phase) :
    place.inFlight = 0 := by
  cases place with
  | handled phase => exact absurd ⟨phase, rfl⟩ h
  | absent | backlog | gone left => rfl

omit [PyFloat φ] in
/-- The count, with one connection apart. -/
theorem sum_registered {sockets : ℕ → Socket φ} {registered : Finset ℕ}
    (h : ∀ d, d ∈ registered ↔ ∃ phase, (sockets d).place = .handled phase) (c : ℕ) :
    ∑ d ∈ registered, (sockets d).place.inFlight =
      (sockets c).place.inFlight + ∑ d ∈ registered.erase c, (sockets d).place.inFlight := by
  by_cases hc : c ∈ registered
  · exact (Finset.add_sum_erase registered (fun d => (sockets d).place.inFlight) hc).symm
  · rw [Finset.erase_eq_of_notMem hc, Place.inFlight_of_not_handled (mt (h c).mpr hc), zero_add]

/-- **A step of one connection** keeps the invariant, if what it does to the backlog, to the
registered connections and to the count fits its new place. -/
theorem ReceiverInv.update {s s' : Receiver φ} (h : ReceiverInv interp s) {c : ℕ}
    {socket : Socket φ} (hs : s.Grows s')
    (hsockets : s'.sockets = Function.update s.sockets c socket)
    (hsocket : SocketInv interp socket)
    (hbacklog : ∀ d, d ∈ s'.backlog ↔ if d = c then socket.place = .backlog else d ∈ s.backlog)
    (hregistered : ∀ d, d ∈ s'.registered ↔
      if d = c then ∃ phase, socket.place = .handled phase else d ∈ s.registered)
    (hinFlight : s'.inFlight - socket.place.inFlight =
      s.inFlight - (s.sockets c).place.inFlight) : ReceiverInv interp s' := by
  have hself : s'.sockets c = socket := by rw [hsockets, Function.update_self]
  have hother : ∀ d, d ≠ c → s'.sockets d = s.sockets d := by
    intro d hd
    rw [hsockets, Function.update_of_ne hd]
  have hregistered_iff : ∀ d, d ∈ s'.registered ↔
      ∃ phase, (s'.sockets d).place = .handled phase := by
    intro d
    rw [hregistered d]
    by_cases hd : d = c
    · rw [if_pos hd, hd, hself]
    · rw [if_neg hd, hother d hd]
      exact h.registered_iff d
  refine ⟨fun d => ?_, fun d => ?_, hregistered_iff, ?_, fun d => ?_, h.drainOk.grows interp hs⟩
  · by_cases hd : d = c
    · rwa [hd, hself]
    · rw [hother d hd]
      exact h.sockets d
  · rw [hbacklog d]
    by_cases hd : d = c
    · rw [if_pos hd, hd, hself]
    · rw [if_neg hd, hother d hd]
      exact h.backlog_iff d
  · -- The other connections count as before.
    have herase : s'.registered.erase c = s.registered.erase c := by
      ext d
      rw [Finset.mem_erase, Finset.mem_erase, hregistered d]
      exact and_congr_right fun hd => by rw [if_neg hd]
    have hrest : ∑ d ∈ s.registered.erase c, (s'.sockets d).place.inFlight =
        ∑ d ∈ s.registered.erase c, (s.sockets d).place.inFlight :=
      Finset.sum_congr rfl fun d hd => by rw [hother d (Finset.ne_of_mem_erase hd)]
    have hold := h.inFlight_eq
    rw [sum_registered h.registered_iff c] at hold
    rw [sum_registered hregistered_iff c, herase, hrest, hself]
    omega
  · rw [hs.atCall]
    exact (h.atCall_written d).trans (hs.written d)

/-- A write or a hang-up, which moves nothing. -/
theorem ReceiverInv.stay {s : Receiver φ} (h : ReceiverInv interp s) {c : ℕ} {socket : Socket φ}
    (hplace : socket.place = (s.sockets c).place) (hsocket : SocketInv interp socket)
    (hwritten : (s.sockets c).written <+: socket.written)
    (hlog : (s.sockets c).log ⊆ socket.log) : ReceiverInv interp (s.update c socket) := by
  refine h.update interp (Receiver.grows_update rfl hwritten hlog rfl rfl fun _ => ⟨rfl, rfl⟩) rfl
    hsocket (fun d => ?_) (fun d => ?_) (by rw [hplace]; rfl)
  · split
    · rename_i hd
      rw [hplace, hd]
      exact h.backlog_iff c
    · rfl
  · split
    · rename_i hd
      rw [hplace, hd]
      exact h.registered_iff c
    · rfl

theorem ReceiverInv.connect {s s' : Receiver φ} (h : ReceiverInv interp s) {c : ℕ}
    (hstep : s.connect c = some s') : ReceiverInv interp s' := by
  unfold Receiver.connect at hstep
  split at hstep
  · rename_i hplace
    obtain rfl := Option.some.inj hstep
    have hc : c ∉ s.registered := by
      rw [h.registered_iff c, hplace]
      simp
    refine h.update interp (Receiver.grows_update rfl List.prefix_rfl (List.Subset.refl _) rfl rfl
      fun _ => ⟨rfl, rfl⟩) rfl ((h.sockets c).move interp (by rw [hplace]; rfl) trivial)
      (fun d => ?_) (fun d => ?_) (by rw [hplace]; rfl)
    · by_cases hd : d = c
      · simp [hd]
      · simp [hd]
    · by_cases hd : d = c
      · simp [Receiver.update, hd, hc]
      · simp [Receiver.update, hd]
  · cases hstep

theorem ReceiverInv.write {s s' : Receiver φ} (h : ReceiverInv interp s) {c : ℕ} {bytes : ByteText}
    (hstep : s.write c bytes = some s') : ReceiverInv interp s' := by
  unfold Receiver.write at hstep
  split at hstep
  · cases hstep
  · rename_i hhung
    have hopen : (s.sockets c).hungUp = false := by simpa using hhung
    -- Whether it waits in the backlog or is served, the bytes are queued.
    have hwritten (habsent : (s.sockets c).place ≠ .absent) : ReceiverInv interp
        (s.update c { s.sockets c with
          written := (s.sockets c).written ++ bytes
          unread := (s.sockets c).unread ++ bytes }) :=
      h.stay interp rfl ((h.sockets c).write interp hopen habsent bytes) (List.prefix_append _ _)
        (List.Subset.refl _)
    split at hstep
    · cases hstep
    · cases hstep
    · rename_i hplace
      exact Option.some.inj hstep ▸ hwritten (by simp [hplace])
    · rename_i phase hplace
      exact Option.some.inj hstep ▸ hwritten (by simp [hplace])

theorem ReceiverInv.hangUp {s s' : Receiver φ} (h : ReceiverInv interp s) {c : ℕ}
    (hstep : s.hangUp c = some s') : ReceiverInv interp s' := by
  unfold Receiver.hangUp at hstep
  split at hstep
  · cases hstep
  · obtain rfl := Option.some.inj hstep
    exact h.stay interp rfl ((h.sockets c).hangUp interp) List.prefix_rfl (List.Subset.refl _)

theorem ReceiverInv.accept {s s' : Receiver φ} (h : ReceiverInv interp s) {c : ℕ}
    (hstep : s.accept c = some s') : ReceiverInv interp s' := by
  unfold Receiver.accept at hstep
  split at hstep
  · rename_i hcan
    obtain ⟨hlock, hplace⟩ := hcan
    obtain rfl := Option.some.inj hstep
    refine h.update interp (Receiver.grows_update rfl List.prefix_rfl (List.Subset.refl _) rfl rfl
      fun hholds => absurd hholds (by simp [hlock])) rfl
      ((h.sockets c).move interp (by rw [hplace]; rfl) trivial)
      (fun d => ?_) (fun d => ?_) (by rw [hplace]; rfl)
    · by_cases hd : d = c
      · simp [hd]
      · simp [hd]
    · by_cases hd : d = c
      · simp [hd]
      · simp [hd]
  · cases hstep

/-- How a handler's step changes the place of its connection. -/
structure Advances (socket socket' : Socket φ) : Prop where
  handled : ∃ phase, socket.place = .handled phase
  stays : (∀ left, socket.place ≠ .handled (.returned left)) →
    ∃ phase, socket'.place = .handled phase
  leaves : ∀ left, socket.place = .handled (.returned left) → socket'.place = .gone left
  inFlight : socket'.place.inFlight = socket.place.inFlight + socket.place.adds
  written : socket'.written = socket.written
  log : socket.log ⊆ socket'.log

omit [PyFloat φ] in
/-- A step between two phases of the same connection. -/
theorem Advances.phase {socket socket' : Socket φ} {phase phase' : Phase}
    (hplace : socket.place = .handled phase) (hplace' : socket'.place = .handled phase')
    (hreturned : ∀ left, phase ≠ .returned left)
    (hcounted : (Place.handled phase').inFlight =
      (Place.handled phase).inFlight + (Place.handled phase).adds)
    (hwritten : socket'.written = socket.written) (hlog : socket.log ⊆ socket'.log) :
    Advances socket socket' where
  handled := ⟨phase, hplace⟩
  stays _ := ⟨phase', hplace'⟩
  leaves left hleft := by
    rw [hplace] at hleft
    exact absurd (Place.handled.inj hleft) (hreturned left)
  inFlight := by rw [hplace, hplace', hcounted]
  written := hwritten
  log := hlog

omit [PyFloat φ] in
theorem Advances.not_backlog {socket socket' : Socket φ} (h : Advances socket socket') :
    socket'.place ≠ .backlog := by
  by_cases hreturned : ∃ left, socket.place = .handled (.returned left)
  · obtain ⟨left, hleft⟩ := hreturned
    simp [h.leaves left hleft]
  · obtain ⟨phase, hphase⟩ := h.stays (by simpa using hreturned)
    simp [hphase]

theorem handlerStep_advances {socket socket' : Socket φ} {size : ℕ}
    (hstep : socket.handlerStep interp size = some socket') : Advances socket socket' := by
  rw [Socket.handlerStep] at hstep
  cases hplace : socket.place with
  | absent | backlog | gone left =>
    rw [hplace] at hstep
    cases hstep
  | handled phase =>
    rw [hplace] at hstep
    cases phase with
    | peeking =>
      simp only at hstep
      split at hstep
      · obtain rfl := Option.some.inj hstep
        exact Advances.phase hplace rfl (by simp) rfl rfl (List.Subset.refl _)
      · split at hstep
        · obtain rfl := Option.some.inj hstep
          exact Advances.phase hplace rfl (by simp) rfl rfl (List.Subset.refl _)
        · cases hstep
    | counting =>
      obtain rfl := Option.some.inj hstep
      exact Advances.phase hplace rfl (by simp) rfl rfl (List.Subset.refl _)
    | header buf =>
      simp only at hstep
      split at hstep
      · rcases recv_cases hstep with ⟨_, rfl⟩ | ⟨_, _, rfl⟩
        · exact Advances.phase hplace rfl (by simp) rfl rfl (List.Subset.refl _)
        · exact Advances.phase hplace rfl (by simp) rfl rfl (List.Subset.refl _)
      · split at hstep
        · obtain rfl := Option.some.inj hstep
          exact Advances.phase hplace rfl (by simp) rfl rfl (List.Subset.refl _)
        · obtain rfl := Option.some.inj hstep
          exact Advances.phase hplace rfl (by simp) rfl rfl (List.Subset.refl _)
    | body head buf =>
      simp only at hstep
      split at hstep
      · rcases recv_cases hstep with ⟨_, rfl⟩ | ⟨_, _, rfl⟩
        · exact Advances.phase hplace rfl (by simp) rfl rfl (List.Subset.refl _)
        · exact Advances.phase hplace rfl (by simp) rfl rfl (List.Subset.refl _)
      · obtain rfl := Option.some.inj hstep
        exact Advances.phase hplace rfl (by simp) rfl rfl (List.Subset.refl _)
    | emitting head text =>
      -- The only phase that adds a record.
      obtain rfl := Option.some.inj hstep
      exact Advances.phase hplace rfl (by simp) rfl rfl (List.subset_append_left _ _)
    | uncounting goesOn left =>
      cases goesOn with
      | true =>
        obtain rfl := Option.some.inj hstep
        exact Advances.phase hplace rfl (by simp) rfl rfl (List.Subset.refl _)
      | false =>
        obtain rfl := Option.some.inj hstep
        exact Advances.phase hplace rfl (by simp) rfl rfl (List.Subset.refl _)
    | returned left =>
      -- The handler lets its connection go, with the reason it has noted.
      obtain rfl := Option.some.inj hstep
      refine ⟨⟨_, hplace⟩, fun hleft => absurd hplace (hleft left), fun left' hleft => ?_, ?_, rfl,
        List.Subset.refl _⟩
      · rw [hplace] at hleft
        obtain rfl : left = left' := by simpa using hleft
        rfl
      · rw [hplace]
        rfl

theorem ReceiverInv.handler {s s' : Receiver φ} (h : ReceiverInv interp s) {c size : ℕ}
    (hstep : s.handler interp c size = some s') : ReceiverInv interp s' := by
  unfold Receiver.handler at hstep
  split at hstep
  · cases hstep
  · rename_i hlock
    split at hstep
    · cases hstep
    · rename_i socket hsocket
      obtain rfl := Option.some.inj hstep
      have hadvances := handlerStep_advances interp hsocket
      have hc : c ∈ s.registered := (h.registered_iff c).mpr hadvances.handled
      refine h.update interp (Receiver.grows_update rfl (hadvances.written ▸ List.prefix_rfl)
        hadvances.log rfl rfl fun hholds => ?_) rfl ((h.sockets c).handlerStep interp hsocket)
        (fun d => ?_) (fun d => ?_) ?_
      · -- Under the lock only steps that count and register nothing are left.
        have hlocks : (s.sockets c).place.locks = false := by
          by_contra hlocks
          exact hlock ⟨hholds, by simpa using hlocks⟩
        obtain ⟨phase, hphase⟩ := hadvances.handled
        simp only [hphase] at hlocks ⊢
        cases phase with
        | counting | uncounting goesOn left | returned left => cases hlocks
        | peeking | header buf | body head buf | emitting head text =>
          exact ⟨add_zero _, rfl⟩
      · by_cases hd : d = c
        · have hold : (s.sockets c).place ≠ .backlog := by
            obtain ⟨phase, hphase⟩ := hadvances.handled
            simp [hphase]
          rw [if_pos hd, hd]
          exact iff_of_false (fun hmem => hold ((h.backlog_iff c).mp hmem)) hadvances.not_backlog
        · rw [if_neg hd]
          rfl
      · obtain ⟨phase, hphase⟩ := hadvances.handled
        simp only [hphase]
        cases phase with
        | returned left =>
          have hgone := hadvances.leaves left hphase
          by_cases hd : d = c
          · simp [hd, hgone]
          · simp [hd]
        | peeking | counting | header buf | body head buf | emitting head text
        | uncounting goesOn left =>
          have hstays := hadvances.stays (by simp [hphase])
          by_cases hd : d = c
          · simp [hd, hc, hstays]
          · simp [hd]
      · have hcount := hadvances.inFlight
        show s.inFlight + (s.sockets c).place.adds - socket.place.inFlight = _
        omega

/-- **A step of `_drain`**: what it finds at one place is still so when it looks at the next. -/
theorem ReceiverInv.drainStep {s s' : Receiver φ} (h : ReceiverInv interp s) {step : DrainStep}
    (hstep : s.drainStep step = some s') : ReceiverInv interp s' := by
  have hdrainOk := h.drainOk
  -- All but `call` change nothing else than where `_drain` stands.
  have hmove (drain : Drain) (hok : s.DrainOk interp drain) :
      ReceiverInv interp { s with drain := drain } := by
    refine ⟨h.sockets, h.backlog_iff, h.registered_iff, h.inFlight_eq, h.atCall_written, ?_⟩
    cases drain with
    | tested idle => cases idle <;> exact hok
    | returned idle => cases idle <;> exact hok
    | notCalled | waiting | locked | polling | peeking remaining => exact hok
  cases step with
  | call =>
    simp only [Receiver.drainStep] at hstep
    split at hstep
    · obtain rfl := Option.some.inj hstep
      exact ⟨h.sockets, h.backlog_iff, h.registered_iff, h.inFlight_eq,
        fun c => List.prefix_rfl, trivial⟩
    · cases hstep
  | lock =>
    simp only [Receiver.drainStep] at hstep
    split at hstep
    · exact Option.some.inj hstep ▸ hmove .locked trivial
    · cases hstep
  | readCount =>
    simp only [Receiver.drainStep] at hstep
    split at hstep
    · obtain rfl := Option.some.inj hstep
      refine hmove _ ?_
      split
      · assumption
      · trivial
    · cases hstep
  | poll =>
    simp only [Receiver.drainStep] at hstep
    split at hstep
    · rename_i hdrain
      rw [hdrain] at hdrainOk
      obtain rfl := Option.some.inj hstep
      refine hmove _ ?_
      split
      · rename_i hbacklog
        exact ⟨hdrainOk, Finset.Subset.refl _, fun c hc => h.settled_of_absent interp hbacklog hc⟩
      · trivial
    · cases hstep
  | peek c =>
    simp only [Receiver.drainStep] at hstep
    split at hstep
    · rename_i remaining hdrain
      rw [hdrain] at hdrainOk
      obtain ⟨hzero, hsubset, hsettled⟩ := hdrainOk
      split at hstep
      · rename_i hc
        obtain rfl := Option.some.inj hstep
        refine hmove _ ?_
        split
        · trivial
        · rename_i hunread
          refine ⟨hzero, (Finset.erase_subset _ _).trans hsubset, fun d hd => ?_⟩
          by_cases hdc : d = c
          · rw [hdc]
            exact h.settled_of_peek interp hzero (hsubset hc) (by simpa using hunread)
          · exact hsettled d fun hmem => hd (Finset.mem_erase.mpr ⟨hdc, hmem⟩)
      · cases hstep
    · cases hstep
  | peekedAll =>
    simp only [Receiver.drainStep] at hstep
    split at hstep
    · rename_i hdrain
      rw [hdrain] at hdrainOk
      exact Option.some.inj hstep ▸ hmove (.tested true) fun c => hdrainOk.2.2 c (by simp)
    · cases hstep
  | unlock late =>
    simp only [Receiver.drainStep] at hstep
    split at hstep
    · rename_i idle hdrain
      rw [hdrain] at hdrainOk
      obtain rfl := Option.some.inj hstep
      refine hmove _ ?_
      cases idle with
      | true => exact hdrainOk
      | false => cases late <;> trivial
    · cases hstep

theorem ReceiverInv.step {s s' : Receiver φ} (h : ReceiverInv interp s) {event : Event}
    (hstep : s.step interp event = some s') : ReceiverInv interp s' := by
  cases event with
  | connect c => exact h.connect interp hstep
  | write c bytes => exact h.write interp hstep
  | hangUp c => exact h.hangUp interp hstep
  | accept c => exact h.accept interp hstep
  | handler c size => exact h.handler interp hstep
  | drain step => exact h.drainStep interp hstep

theorem ReceiverInv.run {events : List Event} {s s' : Receiver φ} (h : ReceiverInv interp s)
    (hrun : s.run interp events = some s') : ReceiverInv interp s' := by
  induction events generalizing s with
  | nil => exact Option.some.inj hrun ▸ h
  | cons event events ih =>
    obtain ⟨next, hstep, hrest⟩ := Option.bind_eq_some_iff.mp hrun
    exact ih (h.step interp hstep) hrest

/-- **An idle receiver has lost nothing.**  In every interleaving, when `_drain` returns because it
found the receiver idle, every valid record whose frame had been written to a connection before
the call is with the logger tree, if the frames before it on its connection did not end the
connection. -/
theorem idle_drain_handed {events : List Event} {s : Receiver φ}
    (hrun : init.run interp events = some s) (hidle : s.drain = .returned true) (c : ℕ)
    (before : List ByteText) (body rest : ByteText) (record : LogRecord φ)
    (hwritten : s.atCall c = (before ++ [body]).flatMap frame ++ rest)
    (hsizes : ∀ b ∈ before ++ [body], b.length ≤ maxFrameSize)
    (hharmless : ∀ b ∈ before, Harmless interp b) (hvalid : ValidRecord interp body record) :
    (before.length, record) ∈ (s.sockets c).log := by
  have hok := ((receiverInv_init interp).run interp hrun).drainOk
  rw [hidle] at hok
  exact hok c before body rest record hwritten hsizes hharmless hvalid

/-! ### A record behind a malformed frame, and one behind an oversize frame -/

def goodPayload : PyJson ExactFloat :=
  .dict [(PyStr.ofString "name", .str (PyStr.ofString "a")), (PyStr.ofString "levelno", .int 20),
    (PyStr.ofString "msg", .str (PyStr.ofString "m")), (PyStr.ofString "created", .int 1700000000),
    (PyStr.ofString "process", .int 1)]

def goodRecord : LogRecord ExactFloat :=
  ⟨.str (PyStr.ofString "a"), .int 20, .text (PyStr.ofString "INFO"), .str (PyStr.ofString "m"),
    .int 1700000000, .int 0, .int 1, .null⟩

theorem loads_goodBody :
    loads quietInterpreter.maxNesting (PyStr.decodeReplace goodBody) = .ok goodPayload := by
  with_unfolding_all rfl

theorem valid_goodBody : ValidRecord quietInterpreter goodBody goodRecord :=
  ⟨goodPayload, PyStr.ofString "a", PyStr.ofString "m", 20, 1, .text (PyStr.ofString "INFO"),
    .int 1700000000, .int 0, loads_goodBody, rfl, rfl, rfl, rfl, rfl, .int 1700000000, rfl, rfl⟩

/-- A handler takes a frame off its socket and re-emits it. -/
def serve (c : ℕ) (body : ByteText) : List Event :=
  [0, 0, 4, 0, body.length, 0, 0, 0].map (.handler c)

/-- `_drain` finds the receiver idle, having looked at these connections. -/
def idleDrain (connections : List ℕ) : List Event :=
  [.drain .lock, .drain .readCount, .drain .poll] ++ connections.map (fun c => .drain (.peek c)) ++
    [.drain .peekedAll, .drain (.unlock false)]

def malformedRun : List Event :=
  [.connect 0, .write 0 ([notJson, goodBody].flatMap frame), .drain .call, .accept 0] ++
    serve 0 notJson ++ serve 0 goodBody ++ idleDrain [0]

theorem record_after_malformed_handed :
    ∃ s : Receiver ExactFloat, init.run quietInterpreter malformedRun = some s ∧
      s.drain = .returned true ∧ (1, goodRecord) ∈ (s.sockets 0).log := by
  have hends : (init.run quietInterpreter malformedRun).map (fun s => (s.drain, s.atCall 0)) =
      some (.returned true, [notJson, goodBody].flatMap frame) := by
    decide +kernel
  obtain ⟨s, hrun, hs⟩ := Option.map_eq_some_iff.mp hends
  obtain ⟨hidle, hwritten⟩ := Prod.mk.inj hs
  have hharmless : Harmless quietInterpreter notJson := by
    rw [harmless_iff]
    intro error herror
    have hlisted : (reemit quietInterpreter notJson).2.all Raised.listed = true := by
      decide +kernel
    rwa [herror] at hlisted
  refine ⟨s, hrun, hidle, idle_drain_handed quietInterpreter hrun hidle 0 [notJson] goodBody []
    goodRecord ?_ (by decide +kernel) (by simpa using hharmless) valid_goodBody⟩
  rw [hwritten, List.append_nil]
  rfl

/-- A body of one byte more than is allowed. -/
def oversizeBody : ByteText := List.replicate (maxFrameSize + 1) 0

theorem frame_oversizeBody : frame oversizeBody = pack (maxFrameSize + 1) ++ oversizeBody := by
  rw [frame, oversizeBody, List.length_replicate]

/-- The handler drops the connection at the oversize length. -/
def oversizeRun : List Event :=
  [.connect 0, .write 0 (pack (maxFrameSize + 1) ++ (oversizeBody ++ frame goodBody)),
    .drain .call, .accept 0] ++ [0, 0, 4, 0, 0, 0].map (.handler 0) ++ idleDrain []

/-- The valid record behind an oversize frame is not handed on, although `_drain` finds the receiver
idle. -/
theorem record_after_oversize_lost :
    ∃ s : Receiver ExactFloat, init.run quietInterpreter oversizeRun = some s ∧
      s.drain = .returned true ∧
      s.atCall 0 = ([oversizeBody] ++ [goodBody]).flatMap frame ∧
      ValidRecord quietInterpreter goodBody goodRecord ∧
      (1, goodRecord) ∉ (s.sockets 0).log := by
  have hends : (init.run quietInterpreter oversizeRun).map
      (fun s => (s.drain, (s.sockets 0).log.length)) = some (.returned true, 0) := by
    decide +kernel
  have hatCall : (init.run quietInterpreter oversizeRun).map (fun s => s.atCall 0) =
      some (pack (maxFrameSize + 1) ++ (oversizeBody ++ frame goodBody)) := rfl
  obtain ⟨s, hrun, hs⟩ := Option.map_eq_some_iff.mp hends
  obtain ⟨hidle, hlog⟩ := Prod.mk.inj hs
  rw [hrun] at hatCall
  refine ⟨s, hrun, hidle, ?_, valid_goodBody, ?_⟩
  · rw [List.flatMap_append, List.flatMap_singleton, List.flatMap_singleton, frame_oversizeBody,
      List.append_assoc]
    exact Option.some.inj hatCall
  · rw [List.length_eq_zero_iff.mp hlog]
    simp

end LogDrain
