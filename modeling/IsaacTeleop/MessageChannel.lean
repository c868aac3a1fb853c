/-
Recording and replay of a message channel.

A live update drains the channel, publishes the drained messages as one batch and records
them under the time of the update, or a record without data when there are none.  The frames
are not stored: a replay update takes the records of one time, reading one record ahead.

The runtime is not part of the model.  A live update is given the answers of the runtime to
the calls that it makes, in their order; it has not returned while an answer is missing.

* `Live.update`, `Live.sendMessage`, `Live.getStatus` — the live tracker;
* `Replay.update` — the replaying tracker;
* `replay_frame_by_frame` — the frames come back, unless an update ends in an exception.
-/
import Mathlib

namespace MessageChannel

abbrev Payload := List UInt8

/-! ### The live tracker -/

inductive XrResult
  | success
  | channelNotConnected
  | instanceLost
  | runtimeFailure
  | other (code : ℤ)
  deriving DecidableEq, Repr

inductive ChannelState
  | connecting
  | connected
  | shutting
  | disconnected
  | other (state : ℤ)
  deriving DecidableEq, Repr

inductive MessageChannelStatus
  | connecting
  | connected
  | shutting
  | disconnected
  | unknown
  deriving DecidableEq, Repr

/-- The answer to one call of `xrReceiveOpaqueDataChannelNV`. -/
inductive Receive
  /-- The size of the next message is asked for. -/
  | query (result : XrResult) (count : UInt32)
  /-- A chunk of an oversized message is read and dropped. -/
  | discard (result : XrResult) (drained : UInt32)
  /-- A message is read. -/
  | read (result : XrResult) (bytes : Payload)
  deriving DecidableEq, Repr

structure DeviceDataTimestamp where
  availableTimeLocalCommonClock : ℤ
  sampleTimeLocalCommonClock : ℤ
  sampleTimeRawDeviceClock : ℤ
  deriving DecidableEq, Repr

/-- The table `MessageChannelMessages`: FlatBuffers omits an empty payload. -/
structure MessageTable where
  payload : Option Payload
  deriving DecidableEq, Repr

structure MessageRecord where
  data : Option MessageTable
  timestamp : Option DeviceDataTimestamp
  deriving DecidableEq, Repr

def packMessage (message : Payload) : MessageTable :=
  ⟨if message = [] then none else some message⟩

/-- `pack_record` -/
def packRecord (data : Option Payload) (timestamp : DeviceDataTimestamp) : MessageRecord :=
  ⟨data.map packMessage, some timestamp⟩

structure Live where
  /-- `channel_` is not `XR_NULL_HANDLE`. -/
  channel : Bool
  instanceLost : Bool
  lastUpdateTime : ℤ
  /-- The batch that is published; the handle is empty before the first update. -/
  messages : Option (List Payload)
  /-- `mcap_channels_` is set. -/
  recording : Bool
  /-- What was written to the recording. -/
  records : List MessageRecord
  deriving DecidableEq, Repr

/-- A tracker whose constructor has opened the channel. -/
def Live.opened (recording : Bool) : Live where
  channel := true
  instanceLost := false
  lastUpdateTime := 0
  messages := none
  recording := recording
  records := []

/-- Where `drain_messages` stands. -/
inductive DrainPoint
  | querying
  | discarding (remaining : UInt32)
  | reading
  deriving DecidableEq, Repr

inductive DrainExit
  | returned
  | instanceLost
  | threw
  deriving DecidableEq, Repr

/-- How a failed query or read ends the drain. -/
def XrResult.drainExit : XrResult → DrainExit
  | .channelNotConnected => .returned
  | .instanceLost => .instanceLost
  | _ => .threw

/-- `drain_messages`, with what it leaves in `native`. -/
def drainMessages (maxMessageSize : ℕ) :
    DrainPoint → List Payload → List Receive → Option (List Payload × DrainExit)
  | .querying, native, .query result count :: answers =>
    if result ≠ .success then some (native, result.drainExit)
    else if count = 0 then some (native, .returned)
    else if maxMessageSize < count.toNat then
      drainMessages maxMessageSize (.discarding count) native answers
    else drainMessages maxMessageSize .reading native answers
  | .discarding remaining, native, .discard result drained :: answers =>
    -- the rest of the message stays in the channel, and the drain stops
    if result ≠ .success ∨ drained = 0 then some (native, .returned)
    else if remaining - drained = 0 then drainMessages maxMessageSize .querying native answers
    else drainMessages maxMessageSize (.discarding (remaining - drained)) native answers
  | .reading, native, .read result bytes :: answers =>
    if result ≠ .success then some (native, result.drainExit)
    else drainMessages maxMessageSize .querying (native ++ [bytes]) answers
  | _, _, _ => none

/-- The answers of the runtime to one update. -/
structure UpdateAnswers where
  /-- The time conversion may throw. -/
  xrTime : Option ℤ
  stateResult : XrResult
  state : ChannelState
  shutdown : XrResult
  destroy : XrResult
  create : XrResult
  receives : List Receive
  deriving DecidableEq, Repr

/-- Results that tell that the runtime is gone. -/
def XrResult.isFatal (result : XrResult) : Bool :=
  result = .instanceLost ∨ result = .runtimeFailure

namespace Live

def queryStatus (s : Live) (stateResult : XrResult) (state : ChannelState) :
    Live × MessageChannelStatus :=
  if s.instanceLost = true ∨ s.channel = false then (s, .disconnected)
  else if stateResult ≠ .success then
    ({ s with instanceLost := s.instanceLost || stateResult.isFatal, channel := false },
      .disconnected)
  else
    (s, match state with
      | .connecting => .connecting
      | .connected => .connected
      | .shutting => .shutting
      | .disconnected => .disconnected
      | .other _ => .unknown)

def destroyChannel (s : Live) (shutdown destroy : XrResult) : Live :=
  if s.channel = false then s
  else if s.instanceLost then { s with channel := false }
  else if shutdown.isFatal then { s with instanceLost := true, channel := false }
  else { s with instanceLost := destroy.isFatal, channel := false }

/-- `create_channel`; what it throws is logged by `try_reopen_channel`. -/
def createChannel (s : Live) (create : XrResult) : Live :=
  if create = .success then { s with channel := true }
  else { s with instanceLost := s.instanceLost || create.isFatal }

def tryReopenChannel (s : Live) (shutdown destroy create : XrResult) : Live :=
  if s.instanceLost then s else (s.destroyChannel shutdown destroy).createChannel create

/-- The records of one update: one for each message, or one without data. -/
def frameRecords (timestamp : DeviceDataTimestamp) (native : List Payload) : List MessageRecord :=
  if native = [] then [packRecord none timestamp]
  else native.map fun message => packRecord (some message) timestamp

/-- The end of an update that did not throw. -/
def publish (s : Live) (native : List Payload) (xrTime : ℤ) : Live :=
  { s with
    messages := some native
    records := if s.recording then
        s.records ++ frameRecords ⟨s.lastUpdateTime, s.lastUpdateTime, xrTime⟩ native
      else s.records }

/-- `update`; the flag tells that it threw. -/
def update (maxMessageSize : ℕ) (s : Live) (monotonicTimeNs : ℤ) (answers : UpdateAnswers) :
    Option (Live × Bool) :=
  let s := { s with lastUpdateTime := monotonicTimeNs }
  match answers.xrTime with
  | none => some (s, true)
  | some xrTime =>
    let (s, status) := s.queryStatus answers.stateResult answers.state
    match status with
    | .disconnected =>
      some ((s.tryReopenChannel answers.shutdown answers.destroy answers.create).publish [] xrTime,
        false)
    | .connected =>
      (drainMessages maxMessageSize .querying [] answers.receives).map fun (native, exit) =>
        match exit with
        | .returned => (s.publish native xrTime, false)
        | .instanceLost =>
          ({ s with instanceLost := true, channel := false }.publish native xrTime, false)
        -- what was drained is published, and nothing is recorded
        | .threw => ({ s with messages := some native }, true)
    | .connecting | .shutting | .unknown => some (s.publish [] xrTime, false)

def getStatus (s : Live) (stateResult : XrResult) (state : ChannelState) : Live :=
  (s.queryStatus stateResult state).1

/-- `send_message`: what it throws leaves the tracker as it is, but for a lost instance. -/
def sendMessage (maxMessageSize : ℕ) (s : Live) (payload : Payload) (stateResult : XrResult)
    (state : ChannelState) (send : XrResult) : Live :=
  let lose := { s with instanceLost := true, channel := false }
  if s.channel = false ∨ maxMessageSize < payload.length then s
  else if stateResult ≠ .success then if stateResult = .instanceLost then lose else s
  else if state ≠ .connected then s
  else if send = .instanceLost then lose
  else s

end Live

inductive LiveCall
  | update (monotonicTimeNs : ℤ) (answers : UpdateAnswers)
  | getStatus (stateResult : XrResult) (state : ChannelState)
  | sendMessage (payload : Payload) (stateResult : XrResult) (state : ChannelState)
      (send : XrResult)
  deriving DecidableEq, Repr

/-- The calls of a caller that goes on after an exception, and what each update leaves
published. -/
def Live.run (maxMessageSize : ℕ) :
    Live → List LiveCall → Option (Live × List (Option (List Payload)))
  | s, [] => some (s, [])
  | s, .update time answers :: calls =>
    (s.update maxMessageSize time answers).bind fun (s, _) =>
      (Live.run maxMessageSize s calls).map fun (s', published) => (s', s.messages :: published)
  | s, .getStatus stateResult state :: calls =>
    Live.run maxMessageSize (s.getStatus stateResult state) calls
  | s, .sendMessage payload stateResult state send :: calls =>
    Live.run maxMessageSize (s.sendMessage maxMessageSize payload stateResult state send) calls

/-! ### The replaying tracker -/

/-- The records that are still to be read; a corrupt one is `none`. -/
structure Replay where
  pendingRecord : Option MessageRecord
  unread : List (Option MessageRecord)
  messages : Option (List Payload)
  deriving DecidableEq, Repr

def Replay.ofRecords (records : List MessageRecord) : Replay := ⟨none, records.map some, none⟩

def recordMonotonicNs (record : MessageRecord) : ℤ :=
  match record.timestamp with
  | none => 0
  | some timestamp => timestamp.availableTimeLocalCommonClock

/-- What a record adds to the batch. -/
def MessageRecord.payloads (record : MessageRecord) : List Payload :=
  (record.data.bind MessageTable.payload).toList

namespace Replay

/-- The loop of `update` over the records of one time; the flag tells that a read threw. -/
def readFrame (frameNs : ℤ) (pending : MessageRecord) (unread : List (Option MessageRecord))
    (messages : List Payload) : Replay × Bool :=
  if recordMonotonicNs pending ≠ frameNs then (⟨some pending, unread, some messages⟩, false)
  else
    match unread with
    | [] => (⟨none, [], some (messages ++ pending.payloads)⟩, false)
    -- a corrupt record stays in front, and the record before it stays pending
    | none :: rest => (⟨some pending, none :: rest, some (messages ++ pending.payloads)⟩, true)
    | some next :: rest => readFrame frameNs next rest (messages ++ pending.payloads)

def update (r : Replay) : Replay × Bool :=
  match r.pendingRecord, r.unread with
  | some pending, unread => readFrame (recordMonotonicNs pending) pending unread []
  | none, [] => (⟨none, [], some []⟩, false)
  | none, none :: rest => (⟨none, none :: rest, some []⟩, true)
  | none, some pending :: rest => readFrame (recordMonotonicNs pending) pending rest []

def updates : ℕ → Replay → Replay
  | 0, r => r
  | n + 1, r => updates n r.update.1

end Replay

/-! ### One update, one time -/

/-- A live update that was recorded. -/
structure Frame where
  time : ℤ
  xrTime : ℤ
  batch : List Payload

def Frame.records (frame : Frame) : List MessageRecord :=
  Live.frameRecords ⟨frame.time, frame.time, frame.xrTime⟩ frame.batch

/-- What a replay can give back of a batch. -/
def nonEmpty (batch : List Payload) : List Payload := batch.filter (· ≠ [])

theorem Frame.records_ne_nil (frame : Frame) : frame.records ≠ [] := by
  unfold Frame.records Live.frameRecords
  split
  · simp
  · simpa

theorem Frame.time_of_mem {frame : Frame} {record : MessageRecord} (h : record ∈ frame.records) :
    recordMonotonicNs record = frame.time := by
  unfold Frame.records Live.frameRecords at h
  split at h
  · rw [List.mem_singleton.mp h]
    rfl
  · obtain ⟨message, -, rfl⟩ := List.mem_map.mp h
    rfl

theorem payloads_packRecord (message : Payload) (timestamp : DeviceDataTimestamp) :
    (packRecord (some message) timestamp).payloads = if message = [] then [] else [message] := by
  unfold packRecord packMessage MessageRecord.payloads
  split <;> simp_all

/-- The records of a frame carry its batch. -/
theorem Frame.flatMap_payloads (frame : Frame) :
    frame.records.flatMap MessageRecord.payloads = nonEmpty frame.batch := by
  unfold Frame.records Live.frameRecords
  split
  · rename_i hempty
    rw [hempty]
    rfl
  · unfold nonEmpty
    induction frame.batch with
    | nil => rfl
    | cons message batch ih =>
      rw [List.map_cons, List.flatMap_cons, payloads_packRecord, List.filter_cons, ih]
      split <;> simp_all

/-! ### Reading a frame back -/

namespace Replay

/-- What is still to come: the pending record and the unread ones. -/
def Remains (r : Replay) (records : List MessageRecord) : Prop :=
  r.pendingRecord.toList.map some ++ r.unread = records.map some

theorem readFrame_group {frameNs : ℤ} {pending : MessageRecord} {group rest : List MessageRecord}
    (messages : List Payload) (hpending : recordMonotonicNs pending = frameNs)
    (hgroup : ∀ record ∈ group, recordMonotonicNs record = frameNs)
    (hrest : ∀ record ∈ rest.head?, recordMonotonicNs record ≠ frameNs) :
    (readFrame frameNs pending ((group ++ rest).map some) messages).1.Remains rest ∧
      (readFrame frameNs pending ((group ++ rest).map some) messages).1.messages =
        some (messages ++ (pending :: group).flatMap MessageRecord.payloads) := by
  induction group generalizing pending messages with
  | nil =>
    cases rest with
    | nil =>
      rw [List.append_nil, List.map_nil, readFrame.eq_def, if_neg (not_not.mpr hpending)]
      exact ⟨rfl, by simp⟩
    | cons next rest =>
      -- the record read ahead has another time, and is kept
      have hnext : recordMonotonicNs next ≠ frameNs := hrest next rfl
      rw [List.nil_append, List.map_cons, readFrame.eq_def, if_neg (not_not.mpr hpending)]
      dsimp only
      rw [readFrame.eq_def, if_pos hnext]
      exact ⟨rfl, by simp⟩
  | cons next group ih =>
    rw [List.cons_append, List.map_cons, readFrame.eq_def, if_neg (not_not.mpr hpending)]
    dsimp only
    have hread := ih (messages ++ pending.payloads) (hgroup next List.mem_cons_self)
      fun record h => hgroup record (List.mem_cons_of_mem _ h)
    refine ⟨hread.1, hread.2.trans ?_⟩
    rw [List.append_assoc]
    rfl

/-- An update takes the records of one frame. -/
theorem update_frame {r : Replay} {frame : Frame} {rest : List MessageRecord}
    (h : r.Remains (frame.records ++ rest))
    (hrest : ∀ record ∈ rest.head?, recordMonotonicNs record ≠ frame.time) :
    r.update.1.Remains rest ∧ r.update.1.messages = some (nonEmpty frame.batch) := by
  obtain ⟨pending, group, hrecords⟩ := List.exists_cons_of_ne_nil frame.records_ne_nil
  have htime : recordMonotonicNs pending = frame.time :=
    Frame.time_of_mem (by rw [hrecords]; exact List.mem_cons_self)
  -- The records of a frame share its time, and the next frame has another one.
  have hgroup : ∀ record ∈ group, recordMonotonicNs record = frame.time := fun record hmem =>
    Frame.time_of_mem (by rw [hrecords]; exact List.mem_cons_of_mem _ hmem)
  have hread := readFrame_group [] htime hgroup hrest
  have hupdate : r.update = readFrame frame.time pending ((group ++ rest).map some) [] := by
    obtain ⟨pendingRecord, unread, messages⟩ := r
    unfold Remains at h
    rw [hrecords, List.cons_append, List.map_cons] at h
    unfold update
    -- The first record was read ahead by the last update, or is read now.
    cases pendingRecord with
    | some first =>
      obtain ⟨hfirst, hunread⟩ := List.cons.inj h
      obtain rfl := Option.some.inj hfirst
      obtain rfl : unread = (group ++ rest).map some := hunread
      dsimp only
      rw [htime]
    | none =>
      simp only [Option.toList_none, List.map_nil, List.nil_append] at h
      rw [h]
      dsimp only
      rw [htime]
  rw [hupdate]
  refine ⟨hread.1, hread.2.trans ?_⟩
  rw [List.nil_append, ← hrecords, frame.flatMap_payloads]

theorem update_end {r : Replay} (h : r.Remains []) :
    r.update.1.Remains [] ∧ r.update.1.messages = some [] := by
  obtain ⟨pendingRecord, unread, messages⟩ := r
  unfold Remains at h
  cases pendingRecord with
  | some first => cases h
  | none =>
    obtain rfl : unread = [] := h
    exact ⟨rfl, rfl⟩

/-- A later frame starts with another time. -/
theorem head_time_ne {frame : Frame} {frames : List Frame}
    (htimes : ∀ f ∈ frames, frame.time < f.time) :
    ∀ record ∈ (frames.flatMap Frame.records).head?, recordMonotonicNs record ≠ frame.time := by
  intro record hhead
  obtain ⟨f, hf, hrecord⟩ := List.mem_flatMap.mp (List.mem_of_mem_head? hhead)
  have hlater := htimes f hf
  have htime := Frame.time_of_mem hrecord
  omega

/-- **Frames come back one by one**, and then empty ones. -/
theorem updates_frames {r : Replay} {frames : List Frame}
    (h : r.Remains (frames.flatMap Frame.records))
    (htimes : frames.Pairwise fun f g => f.time < g.time) (k : ℕ) :
    (updates (k + 1) r).messages =
      some (((frames[k]?).map fun f => nonEmpty f.batch).getD []) := by
  induction k generalizing r frames with
  | zero =>
    cases frames with
    | nil => exact (update_end h).2
    | cons frame frames =>
      exact (update_frame h (head_time_ne (List.pairwise_cons.mp htimes).1)).2
  | succ k ih =>
    cases frames with
    | nil => exact ih (update_end h).1 htimes
    | cons frame frames =>
      obtain ⟨hlater, htimes⟩ := List.pairwise_cons.mp htimes
      exact ih (update_frame h (head_time_ne hlater)).1 htimes

end Replay

/-! ### Every live update leaves a frame -/

/-- A query or a read that is answered by an error which the drain does not expect. -/
def Receive.unexpected : Receive → Bool
  | .query result _ | .read result _ =>
    result ≠ .success ∧ result ≠ .channelNotConnected ∧ result ≠ .instanceLost
  | .discard _ _ => false

/-- The runtime answers a call as the tracker expects. -/
def LiveCall.Answered : LiveCall → Prop
  | .update _ answers =>
    answers.xrTime.isSome = true ∧ ∀ answer ∈ answers.receives, answer.unexpected = false
  | .getStatus _ _ | .sendMessage _ _ _ _ => True

def LiveCall.updateTime : LiveCall → Option ℤ
  | .update time _ => some time
  | .getStatus _ _ | .sendMessage _ _ _ _ => none

theorem XrResult.drainExit_ne_threw {result : XrResult} (hfailed : result ≠ .success)
    (h : (decide (result ≠ .success ∧ result ≠ .channelNotConnected ∧
      result ≠ .instanceLost)) = false) : result.drainExit ≠ .threw := by
  cases result <;> simp_all [XrResult.drainExit]

theorem drainMessages_ne_threw {maxMessageSize : ℕ} {point : DrainPoint} {native : List Payload}
    {answers : List Receive} {result : List Payload × DrainExit}
    (hanswered : ∀ answer ∈ answers, answer.unexpected = false)
    (h : drainMessages maxMessageSize point native answers = some result) :
    result.2 ≠ .threw := by
  induction answers generalizing point native with
  | nil => cases point <;> cases h
  | cons answer answers ih =>
    have hfirst := hanswered answer List.mem_cons_self
    have hrest := fun a ha => hanswered a (List.mem_cons_of_mem _ ha)
    cases point with
    | querying =>
      -- At each point only its own kind of answer counts, and a failed one was expected.
      cases answer with
      | query result count =>
        unfold drainMessages at h
        split at h
        · rename_i hfailed
          cases h
          exact XrResult.drainExit_ne_threw hfailed hfirst
        · split at h
          · cases h
            nofun
          · split at h
            · exact ih hrest h
            · exact ih hrest h
      | discard result drained => cases h
      | read result bytes => cases h
    | discarding remaining =>
      cases answer with
      | query result count => cases h
      | discard result drained =>
        unfold drainMessages at h
        split at h
        · cases h
          nofun
        · split at h
          · exact ih hrest h
          · exact ih hrest h
      | read result bytes => cases h
    | reading =>
      cases answer with
      | query result count => cases h
      | discard result drained => cases h
      | read result bytes =>
        unfold drainMessages at h
        split at h
        · rename_i hfailed
          cases h
          exact XrResult.drainExit_ne_threw hfailed hfirst
        · exact ih hrest h

namespace Live

/-- The channel may have changed, the recording has not. -/
structure Keeps (s s' : Live) : Prop where
  lastUpdateTime : s'.lastUpdateTime = s.lastUpdateTime
  recording : s'.recording = s.recording
  records : s'.records = s.records

theorem Keeps.refl (s : Live) : Keeps s s := ⟨rfl, rfl, rfl⟩

theorem Keeps.trans {s s' s'' : Live} (h : Keeps s s') (h' : Keeps s' s'') : Keeps s s'' :=
  ⟨h'.1.trans h.1, h'.2.trans h.2, h'.3.trans h.3⟩

theorem keeps_queryStatus (s : Live) (stateResult : XrResult) (state : ChannelState) :
    Keeps s (s.queryStatus stateResult state).1 := by
  unfold queryStatus
  split
  · exact .refl s
  · split
    · exact ⟨rfl, rfl, rfl⟩
    · exact .refl s

theorem keeps_tryReopenChannel (s : Live) (shutdown destroy create : XrResult) :
    Keeps s (s.tryReopenChannel shutdown destroy create) := by
  unfold tryReopenChannel
  split
  · exact .refl s
  · have hdestroyed : Keeps s (s.destroyChannel shutdown destroy) := by
      unfold destroyChannel
      repeat' split
      all_goals exact ⟨rfl, rfl, rfl⟩
    refine hdestroyed.trans ?_
    unfold createChannel
    split
    · exact ⟨rfl, rfl, rfl⟩
    · exact ⟨rfl, rfl, rfl⟩

theorem keeps_sendMessage (maxMessageSize : ℕ) (s : Live) (payload : Payload)
    (stateResult : XrResult) (state : ChannelState) (send : XrResult) :
    Keeps s (s.sendMessage maxMessageSize payload stateResult state send) := by
  unfold sendMessage
  repeat' split
  all_goals exact ⟨rfl, rfl, rfl⟩

/-- What an update that does not throw leaves behind. -/
structure Records (s s' : Live) (frame : Frame) : Prop where
  messages : s'.messages = some frame.batch
  recording : s'.recording = s.recording
  records : s.recording = true → s'.records = s.records ++ frame.records

theorem Keeps.records_publish {s s₁ : Live} (h : Keeps s s₁) (native : List Payload)
    (xrTime : ℤ) : Records s (s₁.publish native xrTime) ⟨s.lastUpdateTime, xrTime, native⟩ := by
  refine ⟨rfl, h.recording, fun hrecording => ?_⟩
  show (if s₁.recording then _ else _) = _
  rw [if_pos (h.recording.trans hrecording), h.records, h.lastUpdateTime]
  rfl

theorem update_records {maxMessageSize : ℕ} {s s' : Live} {time : ℤ} {answers : UpdateAnswers}
    {threw : Bool} (hanswered : (LiveCall.update time answers).Answered)
    (h : s.update maxMessageSize time answers = some (s', threw)) :
    ∃ frame : Frame, frame.time = time ∧ Records s s' frame := by
  obtain ⟨hconverted, hreceives⟩ := hanswered
  obtain ⟨xrTime, hxrTime⟩ := Option.isSome_iff_exists.mp hconverted
  unfold update at h
  rw [hxrTime] at h
  dsimp only at h
  -- The time is stored before the channel is looked at.
  set timed : Live := { s with lastUpdateTime := time } with htimed
  have hquery := keeps_queryStatus timed answers.stateResult answers.state
  split at h
  · cases h
    have hkeeps := hquery.trans
      (keeps_tryReopenChannel _ answers.shutdown answers.destroy answers.create)
    exact ⟨_, rfl, { hkeeps.records_publish [] xrTime with }⟩
  · obtain ⟨⟨native, exit⟩, hdrain, hexit⟩ := Option.map_eq_some_iff.mp h
    have hthrew := drainMessages_ne_threw hreceives hdrain
    cases exit with
    | returned =>
      cases hexit
      exact ⟨_, rfl, { hquery.records_publish native xrTime with }⟩
    | instanceLost =>
      -- What was drained before the loss is still published.
      cases hexit
      exact ⟨_, rfl, { (hquery.trans ⟨rfl, rfl, rfl⟩).records_publish native xrTime with }⟩
    | threw => exact absurd rfl hthrew
  all_goals
    cases h
    exact ⟨_, rfl, { hquery.records_publish [] xrTime with }⟩

/-- A run leaves one frame for each update. -/
theorem run_frames {maxMessageSize : ℕ} {calls : List LiveCall} {s s' : Live}
    {published : List (Option (List Payload))} (hanswered : ∀ call ∈ calls, call.Answered)
    (hrecording : s.recording = true) (h : run maxMessageSize s calls = some (s', published)) :
    ∃ frames : List Frame, frames.map Frame.time = calls.filterMap LiveCall.updateTime ∧
      published = frames.map (fun f => some f.batch) ∧
      s'.records = s.records ++ frames.flatMap Frame.records := by
  induction calls generalizing s published with
  | nil =>
    cases h
    exact ⟨[], rfl, rfl, by simp⟩
  | cons call calls ih =>
    have hfirst := hanswered call List.mem_cons_self
    have hrest := fun c hc => hanswered c (List.mem_cons_of_mem _ hc)
    cases call with
    | update time answers =>
      -- Only an update appends a frame; the other calls keep the records.
      unfold run at h
      obtain ⟨⟨s₁, threw⟩, hupdate, hcalls⟩ := Option.bind_eq_some_iff.mp h
      obtain ⟨⟨s₂, later⟩, hrun, heq⟩ := Option.map_eq_some_iff.mp hcalls
      cases heq
      obtain ⟨frame, htime, hframe⟩ := update_records hfirst hupdate
      obtain ⟨frames, htimes, hpublished, hrecords⟩ :=
        ih hrest (hframe.recording.trans hrecording) hrun
      refine ⟨frame :: frames, ?_, ?_, ?_⟩
      · rw [List.map_cons, htime, htimes]
        rfl
      · rw [List.map_cons, hpublished, hframe.messages]
      · rw [hrecords, hframe.records hrecording, List.flatMap_cons, List.append_assoc]
    | getStatus stateResult state =>
      have hkeeps := keeps_queryStatus s stateResult state
      obtain ⟨frames, htimes, hpublished, hrecords⟩ :=
        ih (s := s.getStatus stateResult state) hrest (hkeeps.recording.trans hrecording) h
      exact ⟨frames, htimes, hpublished, hkeeps.records ▸ hrecords⟩
    | sendMessage payload stateResult state send =>
      have hkeeps := keeps_sendMessage maxMessageSize s payload stateResult state send
      obtain ⟨frames, htimes, hpublished, hrecords⟩ :=
        ih hrest (hkeeps.recording.trans hrecording) h
      exact ⟨frames, htimes, hpublished, hkeeps.records ▸ hrecords⟩

end Live

/-- **Recordings replay frame by frame** while the runtime answers as expected: each replay
update publishes the batch of the live update with its number, and empty batches come after
the last one. -/
theorem replay_frame_by_frame {maxMessageSize : ℕ} {calls : List LiveCall} {s : Live}
    {published : List (Option (List Payload))}
    (hrun : Live.run maxMessageSize (Live.opened true) calls = some (s, published))
    (htimes : (calls.filterMap LiveCall.updateTime).Pairwise (· < ·))
    (hanswered : ∀ call ∈ calls, call.Answered) :
    (∀ k batch, published[k]? = some batch → ∃ native, batch = some native ∧
      (Replay.updates (k + 1) (.ofRecords s.records)).messages = some (nonEmpty native)) ∧
    ∀ k, published.length ≤ k →
      (Replay.updates (k + 1) (.ofRecords s.records)).messages = some [] := by
  obtain ⟨frames, hframes, rfl, hrecords⟩ := Live.run_frames hanswered rfl hrun
  have hremains : (Replay.ofRecords s.records).Remains (frames.flatMap Frame.records) := by
    rw [hrecords]
    rfl
  -- Update times increase, so no two frames fall into one group.
  have hordered : frames.Pairwise fun f g => f.time < g.time := by
    rw [← hframes] at htimes
    exact List.pairwise_map.mp htimes
  have hreplayed := Replay.updates_frames hremains hordered
  constructor
  · intro k batch hbatch
    rw [List.getElem?_map] at hbatch
    obtain ⟨frame, hframe, rfl⟩ := Option.map_eq_some_iff.mp hbatch
    refine ⟨frame.batch, rfl, ?_⟩
    rw [hreplayed k, hframe]
    rfl
  · intro k hk
    rw [List.length_map] at hk
    rw [hreplayed k, List.getElem?_eq_none hk]
    rfl

/-- The answers of a runtime with an open channel. -/
def connectedAnswers (receives : List Receive) : UpdateAnswers :=
  ⟨some 0, .success, .connected, .success, .success, .success, receives⟩

/-- A batch of two messages, an oversized message, and a lost connection. -/
def answeredCalls : List LiveCall :=
  [.update 10 (connectedAnswers [.query .success 1, .read .success [1], .query .success 2,
      .read .success [2, 3], .query .success 0]),
    .update 20 (connectedAnswers [.query .success 9, .discard .success 9,
      .query .channelNotConnected 0]),
    .update 30 (connectedAnswers [.query .success 1, .read .success [4],
      .query .instanceLost 0])]

theorem answered_calls_replayed :
    ∃ s, Live.run 4 (Live.opened true) answeredCalls =
        some (s, [some [[1], [2, 3]], some [], some [[4]]]) ∧
      (Replay.updates 1 (.ofRecords s.records)).messages = some [[1], [2, 3]] ∧
      (Replay.updates 4 (.ofRecords s.records)).messages = some [] := by
  have hrun : (Live.run 4 (Live.opened true) answeredCalls).map Prod.snd =
      some [some [[1], [2, 3]], some [], some [[4]]] := by decide
  obtain ⟨⟨s, published⟩, hs, rfl⟩ := Option.map_eq_some_iff.mp hrun
  have hanswered : ∀ call ∈ answeredCalls, call.Answered := by
    simp [answeredCalls, LiveCall.Answered, connectedAnswers, Receive.unexpected]
  have hreplayed := replay_frame_by_frame hs (by decide) hanswered
  obtain ⟨native, hnative, hfirst⟩ := hreplayed.1 0 _ rfl
  cases hnative
  exact ⟨s, hs, hfirst, hreplayed.2 3 (by decide)⟩

/-- The first update drains one message and then fails. -/
def failingCalls : List LiveCall :=
  [.update 10 (connectedAnswers [.query .success 1, .read .success [1], .query (.other (-1)) 0]),
    .update 20 (connectedAnswers [.query .success 1, .read .success [2], .query .success 0])]

/-- The batch of the failed update is published and not recorded, so that the first replay
update gives the batch of the second live update. -/
theorem failed_update_not_replayed :
    ∃ s, Live.run 4 (Live.opened true) failingCalls = some (s, [some [[1]], some [[2]]]) ∧
      (failingCalls.filterMap LiveCall.updateTime).Pairwise (· < ·) ∧
      (Replay.updates 1 (.ofRecords s.records)).messages = some [[2]] ∧
      (Replay.updates 2 (.ofRecords s.records)).messages = some [] := by
  refine ⟨?s, ?_, by decide, ?_, ?_⟩
  case s =>
    exact ⟨true, false, 20, some [[2]], true, [packRecord (some [2]) ⟨20, 20, 0⟩]⟩
  all_goals decide

end MessageChannel
