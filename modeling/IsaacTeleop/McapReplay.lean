/-
Replay of a multi-channel recording.

One `McapTrackerViewers` reads all of its sub-channels through one shared iterator over
the recording.  `read(i)` advances that iterator until a message of channel `i` comes by,
and stashes what it passes in the buffers of the other channels.

Over it stands the reader's purpose: one queue per channel, holding what was recorded on
the channel's topic, from which a read takes the front.

* `McapTrackerViewers.read_takes` — a read takes the front of its own queue and leaves every
  other queue alone;
* `McapTrackerViewers.readAll_splits` — what a run has returned, followed by what still
  waits, is what was recorded;
* `McapTrackerViewers.replay_demultiplexes` — the whole run of reads.
-/
import IsaacTeleop.ByteText

open ByteText

/-! ### The recording and the handles over it -/

/-- A message of the recording: the topic of its channel, its sequence number and its
payload. -/
structure RecordedMessage where
  topic : ByteText
  sequence : ℕ
  data : ByteText
  deriving DecidableEq

/-- An owning handle over encoded bytes; the empty handle owns none. -/
abbrev Serialized := Option ByteText

/-- `Serialized::adopt`: the handle owns the bytes it is given. -/
def Serialized.adopt (bytes : ByteText) : Serialized := some bytes

/-- The exceptions of a read, with their texts. -/
inductive ReplayFailure where
  | outOfRange (what : ByteText)
  | runtimeError (what : ByteText)
  | assertionFailed (what : ByteText)
  deriving DecidableEq

structure ChannelBuffer where
  topic : ByteText
  buffer : List Serialized
  deriving DecidableEq

/-- The reader: its channels, and the messages from the shared iterator to the end of the
view. -/
structure McapTrackerViewers where
  channels : List ChannelBuffer
  view : List RecordedMessage
  deriving DecidableEq

def mcapTopic (baseName subChannel : ByteText) : ByteText := baseName ++ lit "/" ++ subChannel

namespace McapTrackerViewers

/-- Where `topic` sits in the list of channels. -/
def channelIndexOf (channels : List ChannelBuffer) (topic : ByteText) : Option ℕ :=
  channels.findIdx? fun channel => channel.topic == topic

/-- The constructor: one channel per sub-channel, and a view of the messages that the topic
filter admits. -/
def ofRecording (baseName : ByteText) (subChannels : List ByteText) (file : List RecordedMessage) :
    McapTrackerViewers :=
  let channels := subChannels.map fun sub => ⟨mcapTopic baseName sub, []⟩
  ⟨channels, file.filter fun msg => (channelIndexOf channels msg.topic).isSome⟩

section Reading

-- `VerifyBuffer<RecordT>()` of the FlatBuffers library.
variable (verifyBuffer : ByteText → Bool)

def adoptMessage (msg : RecordedMessage) (channelIndex : ℕ) : Except ReplayFailure Serialized :=
  if verifyBuffer msg.data then
    .ok (Serialized.adopt msg.data)
  else
    .error (.runtimeError (lit "McapTrackerViewers: corrupt FlatBuffer in channel " ++
      decimal channelIndex ++ lit " at sequence " ++ decimal msg.sequence))

/-- `push_back` on the buffer of channel `idx`. -/
def stash (channels : List ChannelBuffer) (idx : ℕ) (record : Serialized) :
    List ChannelBuffer :=
  channels.modify idx fun channel => { channel with buffer := channel.buffer ++ [record] }

/-- `pop_front` on the buffer of channel `idx`. -/
def unstash (channels : List ChannelBuffer) (idx : ℕ) : List ChannelBuffer :=
  channels.modify idx fun channel => { channel with buffer := channel.buffer.tail }

/-- The loop of `read`: advance the iterator to the next message of the channel. -/
def advance (channelIndex : ℕ) (channels : List ChannelBuffer) :
    List RecordedMessage → Except ReplayFailure Serialized × McapTrackerViewers
  | [] => (.ok none, ⟨channels, []⟩)
  | msg :: rest =>
    match channelIndexOf channels msg.topic with
    | none =>
      (.error (.assertionFailed (lit "topic filter admitted a topic this tracker does not read")),
        ⟨channels, msg :: rest⟩)
    | some idx =>
      match adoptMessage verifyBuffer msg idx with
      -- the exception leaves the iterator on the corrupt message
      | .error failure => (.error failure, ⟨channels, msg :: rest⟩)
      | .ok record =>
        if idx = channelIndex then (.ok record, ⟨channels, rest⟩)
        else advance channelIndex (stash channels idx record) rest

def read (viewers : McapTrackerViewers) (channelIndex : ℕ) :
    Except ReplayFailure Serialized × McapTrackerViewers :=
  match viewers.channels[channelIndex]? with
  | none =>
    (.error (.outOfRange (lit "McapTrackerViewers: read called with channel_index=" ++
      decimal channelIndex ++ lit " but only " ++ decimal viewers.channels.length ++
      lit " channels registered")), viewers)
  | some channel =>
    match channel.buffer with
    | front :: _ =>
      (.ok front, { viewers with channels := unstash viewers.channels channelIndex })
    | [] => advance verifyBuffer channelIndex viewers.channels viewers.view

/-- The calls of a run, in order, each with what it answered, and the reader after them. -/
def readAll (viewers : McapTrackerViewers) :
    List ℕ → List (ℕ × Except ReplayFailure Serialized) × McapTrackerViewers
  | [] => ([], viewers)
  | channelIndex :: calls =>
    let (answer, viewers) := viewers.read verifyBuffer channelIndex
    let (history, viewers) := viewers.readAll calls
    ((channelIndex, answer) :: history, viewers)

end Reading

/-! ### One queue per channel -/

/-- What was recorded on a topic, in file order. -/
def recorded (topic : ByteText) (file : List RecordedMessage) : List Serialized :=
  (file.filter fun msg => msg.topic == topic).map fun msg => Serialized.adopt msg.data

/-- The queue of a channel: what is stashed for it, then what the view still holds of its
topic. -/
def queue (channels : List ChannelBuffer) (view : List RecordedMessage) (i : ℕ) :
    List Serialized :=
  (channels[i]?.map fun channel => channel.buffer ++ recorded channel.topic view).getD []

/-- What the reads of a channel have answered, failures and empty handles included. -/
def answers (i : ℕ) (history : List (ℕ × Except ReplayFailure Serialized)) :
    List (Except ReplayFailure Serialized) :=
  (history.filter fun call => call.1 == i).map Prod.snd

/-- The record of a successful read; an empty handle is no record. -/
def recordOf : Except ReplayFailure Serialized → Option Serialized
  | .ok (some bytes) => some (some bytes)
  | .ok none => none
  | .error _ => none

/-- The records that the reads of a channel have returned. -/
def returned (i : ℕ) (history : List (ℕ × Except ReplayFailure Serialized)) : List Serialized :=
  (answers i history).filterMap recordOf

/-- The topics of the channels are distinct, the view holds only messages of theirs, and a
stashed handle is never empty. -/
structure WellFormed (channels : List ChannelBuffer) (view : List RecordedMessage) : Prop where
  distinct : (channels.map ChannelBuffer.topic).Nodup
  admitted : ∀ msg ∈ view, (channelIndexOf channels msg.topic).isSome
  stashed : ∀ channel ∈ channels, none ∉ channel.buffer

/-- What one read of channel `i` does to the queues. -/
inductive Takes (verifyBuffer : ByteText → Bool) (i : ℕ) (v v' : McapTrackerViewers) :
    Except ReplayFailure Serialized → Prop
  | record (bytes : ByteText)
      (front : queue v.channels v.view i = some bytes :: queue v'.channels v'.view i)
      (others : ∀ j, j ≠ i → queue v'.channels v'.view j = queue v.channels v.view j) :
      Takes verifyBuffer i v v' (.ok (some bytes))
  | exhausted (empty : queue v.channels v.view i = [])
      (all : ∀ j, queue v'.channels v'.view j = queue v.channels v.view j) :
      Takes verifyBuffer i v v' (.ok none)
  | failed (failure : ReplayFailure)
      (all : ∀ j, queue v'.channels v'.view j = queue v.channels v.view j)
      (cause : v.channels.length ≤ i ∨ ∃ msg ∈ v.view, verifyBuffer msg.data = false) :
      Takes verifyBuffer i v v' (.error failure)

/-! ### The channel of a topic -/

variable {channels : List ChannelBuffer} {view : List RecordedMessage} {topic : ByteText}

theorem channelIndexOf_eq_some {idx : ℕ} (h : channelIndexOf channels topic = some idx) :
    ∃ channel, channels[idx]? = some channel ∧ channel.topic = topic := by
  obtain ⟨hidx, htopic, -⟩ := List.findIdx?_eq_some_iff_getElem.mp h
  exact ⟨channels[idx], List.getElem?_eq_getElem hidx, by simpa using htopic⟩

/-- With distinct topics, only one channel has the topic. -/
theorem index_unique (hd : (channels.map ChannelBuffer.topic).Nodup) {i j : ℕ}
    {a b : ChannelBuffer} (ha : channels[i]? = some a) (hb : channels[j]? = some b)
    (htopic : a.topic = b.topic) : i = j := by
  have hi : i < (channels.map ChannelBuffer.topic).length := by
    have := (List.getElem?_eq_some_iff.mp ha).1
    simpa using this
  refine (List.getElem?_inj hi hd).mp ?_
  rw [List.getElem?_map, List.getElem?_map, ha, hb]
  simp [htopic]

/-- Which topics there are decides the channel of a topic. -/
theorem channelIndexOf_congr {channels' : List ChannelBuffer}
    (h : channels'.map ChannelBuffer.topic = channels.map ChannelBuffer.topic)
    (topic : ByteText) : channelIndexOf channels' topic = channelIndexOf channels topic := by
  have hmap : ∀ cs : List ChannelBuffer, channelIndexOf cs topic =
      (cs.map ChannelBuffer.topic).findIdx? fun t => t == topic := by
    intro cs
    rw [List.findIdx?_map]
    rfl
  rw [hmap, hmap, h]

@[simp] theorem stash_topics (idx : ℕ) (record : Serialized) :
    (stash channels idx record).map ChannelBuffer.topic =
      channels.map ChannelBuffer.topic := by
  refine List.ext_getElem? fun k => ?_
  rw [stash, List.getElem?_map, List.getElem?_map, List.getElem?_modify]
  split
  · cases channels[k]? <;> simp
  · simp

@[simp] theorem unstash_topics (idx : ℕ) :
    (unstash channels idx).map ChannelBuffer.topic = channels.map ChannelBuffer.topic := by
  refine List.ext_getElem? fun k => ?_
  rw [unstash, List.getElem?_map, List.getElem?_map, List.getElem?_modify]
  split
  · cases channels[k]? <;> simp
  · simp

/-! ### The queues under the reader's moves -/

theorem recorded_cons (msg : RecordedMessage) (view : List RecordedMessage) :
    recorded topic (msg :: view) =
      if msg.topic = topic then Serialized.adopt msg.data :: recorded topic view
      else recorded topic view := by
  rw [recorded, List.filter_cons]
  by_cases h : msg.topic = topic
  · simp [h, recorded]
  · simp [h, recorded]

theorem queue_of_channel {i : ℕ} {channel : ChannelBuffer} (h : channels[i]? = some channel) :
    queue channels view i = channel.buffer ++ recorded channel.topic view := by
  simp [queue, h]

/-- The iterator passes a message: it goes to the back of its own channel's buffer, and no
queue changes. -/
theorem queue_stash {msg : RecordedMessage} {idx : ℕ}
    (hd : (channels.map ChannelBuffer.topic).Nodup)
    (hidx : channelIndexOf channels msg.topic = some idx) (j : ℕ) :
    queue (stash channels idx (Serialized.adopt msg.data)) view j =
      queue channels (msg :: view) j := by
  obtain ⟨owner, howner, htopic⟩ := channelIndexOf_eq_some hidx
  rw [queue, queue, stash, List.getElem?_modify]
  rcases hj : channels[j]? with _ | channel
  · split <;> simp
  · by_cases hsame : idx = j
    · -- the owner of the message: its topic is the message's
      subst hsame
      have heq : channel = owner := by simpa [hj] using howner
      simp [heq, htopic, recorded_cons]
    · have hother : msg.topic ≠ channel.topic := by
        intro h
        exact hsame (index_unique hd howner hj (htopic.trans h))
      simp [hsame, recorded_cons, hother]

/-- The iterator hands a message out: it leaves the front of its own channel's queue, as long
as nothing was stashed before it. -/
theorem queue_hand_out {msg : RecordedMessage} {i : ℕ} {channel : ChannelBuffer}
    (hchannel : channels[i]? = some channel) (hempty : channel.buffer = [])
    (htopic : channel.topic = msg.topic) :
    queue channels (msg :: view) i = Serialized.adopt msg.data :: queue channels view i := by
  rw [queue_of_channel hchannel, queue_of_channel hchannel, recorded_cons, if_pos htopic.symm,
    hempty]
  rfl

theorem queue_pass {msg : RecordedMessage} {i j : ℕ} {owner : ChannelBuffer}
    (hd : (channels.map ChannelBuffer.topic).Nodup) (howner : channels[i]? = some owner)
    (htopic : owner.topic = msg.topic) (hj : j ≠ i) :
    queue channels (msg :: view) j = queue channels view j := by
  rcases hc : channels[j]? with _ | channel
  · simp [queue, hc]
  · have hother : msg.topic ≠ channel.topic := by
      intro h
      exact hj (index_unique hd howner hc (htopic.trans h)).symm
    rw [queue_of_channel hc, queue_of_channel hc, recorded_cons, if_neg hother]

theorem queue_unstash (i j : ℕ) :
    queue (unstash channels i) view j =
      if j = i then
        (channels[i]?.map fun c => c.buffer.tail ++ recorded c.topic view).getD []
      else queue channels view j := by
  rw [queue, unstash, List.getElem?_modify]
  by_cases h : j = i
  · subst h
    cases hc : channels[j]? with
    | none => simp
    | some channel => simp
  · simp [h, Ne.symm h, queue]

/-! ### Well-formedness is kept -/

theorem WellFormed.tail {msg : RecordedMessage} (h : WellFormed channels (msg :: view)) :
    WellFormed channels view :=
  ⟨h.distinct, fun m hm => h.admitted m (List.mem_cons_of_mem _ hm), h.stashed⟩

theorem WellFormed.stash (h : WellFormed channels view) (idx : ℕ) (bytes : ByteText) :
    WellFormed (stash channels idx (Serialized.adopt bytes)) view := by
  refine ⟨by simpa using h.distinct, ?_, ?_⟩
  · intro msg hmsg
    rw [channelIndexOf_congr (stash_topics idx _)]
    exact h.admitted msg hmsg
  · intro channel hchannel hnone
    obtain ⟨k, hk⟩ := List.mem_iff_getElem?.mp hchannel
    rw [McapTrackerViewers.stash, List.getElem?_modify] at hk
    obtain ⟨old, hold, hnew⟩ := Option.map_eq_some_iff.mp hk
    have hclean : none ∉ old.buffer := h.stashed old (List.mem_of_getElem? hold)
    split at hnew
    · rw [← hnew] at hnone
      simp [Serialized.adopt, hclean] at hnone
    · rw [← hnew] at hnone
      exact hclean hnone

theorem WellFormed.unstash (h : WellFormed channels view) (idx : ℕ) :
    WellFormed (unstash channels idx) view := by
  refine ⟨by simpa using h.distinct, ?_, ?_⟩
  · intro msg hmsg
    rw [channelIndexOf_congr (unstash_topics idx)]
    exact h.admitted msg hmsg
  · intro channel hchannel hnone
    obtain ⟨k, hk⟩ := List.mem_iff_getElem?.mp hchannel
    rw [McapTrackerViewers.unstash, List.getElem?_modify] at hk
    obtain ⟨old, hold, hnew⟩ := Option.map_eq_some_iff.mp hk
    have hclean : none ∉ old.buffer := h.stashed old (List.mem_of_getElem? hold)
    split at hnew
    · rw [← hnew] at hnone
      exact hclean (List.mem_of_mem_tail hnone)
    · rw [← hnew] at hnone
      exact hclean hnone

/-! ### One read -/

/-- What every read leaves as it is: well-formedness and the topics; and the view only gets
shorter, from the front. -/
structure Continues (v v' : McapTrackerViewers) : Prop where
  wellFormed : WellFormed v'.channels v'.view
  topics : v'.channels.map ChannelBuffer.topic = v.channels.map ChannelBuffer.topic
  view : v'.view <:+ v.view

theorem Continues.length {v v' : McapTrackerViewers} (h : Continues v v') :
    v'.channels.length = v.channels.length := by
  simpa using congrArg List.length h.topics

variable {verifyBuffer : ByteText → Bool}

/-- What a read does is decided by the queues it starts from. -/
theorem Takes.of_queue_eq {i : ℕ} {v₀ v v' : McapTrackerViewers}
    {answer : Except ReplayFailure Serialized}
    (hq : ∀ j, queue v.channels v.view j = queue v₀.channels v₀.view j)
    (hlength : v.channels.length = v₀.channels.length) (hview : v.view ⊆ v₀.view)
    (h : Takes verifyBuffer i v v' answer) : Takes verifyBuffer i v₀ v' answer := by
  cases h with
  | record bytes front others =>
    refine .record bytes ((hq i).symm.trans front) fun j hj => ?_
    exact (others j hj).trans (hq j)
  | exhausted empty all =>
    refine .exhausted ((hq i).symm.trans empty) fun j => ?_
    exact (all j).trans (hq j)
  | failed failure all cause =>
    refine .failed failure (fun j => (all j).trans (hq j)) ?_
    rcases cause with hrange | ⟨msg, hmsg, hbad⟩
    · exact .inl (hlength ▸ hrange)
    · exact .inr ⟨msg, hview hmsg, hbad⟩

/-- The loop: passing a message keeps every queue, so the loop does what the read it ends in
does. -/
theorem advance_takes {i : ℕ} {channel : ChannelBuffer} (h : WellFormed channels view)
    (hchannel : channels[i]? = some channel) (hempty : channel.buffer = []) :
    let result := advance verifyBuffer i channels view
    Takes verifyBuffer i ⟨channels, view⟩ result.2 result.1 ∧
      Continues ⟨channels, view⟩ result.2 := by
  induction view generalizing channels with
  | nil =>
    refine ⟨.exhausted ?_ fun j => rfl, h, rfl, List.suffix_refl _⟩
    simp [queue_of_channel hchannel, hempty, recorded]
  | cons msg rest ih =>
    obtain ⟨idx, hidx⟩ := Option.isSome_iff_exists.mp (h.admitted msg (List.mem_cons_self ..))
    obtain ⟨owner, howner, htopic⟩ := channelIndexOf_eq_some hidx
    simp only [advance, hidx, adoptMessage]
    by_cases hverify : verifyBuffer msg.data = true
    · simp only [hverify, if_true]
      by_cases hsame : idx = i
      · -- the requested channel
        subst hsame
        have heq : owner = channel := by simpa [howner] using hchannel
        subst heq
        rw [if_pos rfl]
        refine ⟨.record msg.data ?_ ?_, h.tail, rfl, List.suffix_cons ..⟩
        · exact queue_hand_out howner hempty htopic
        · intro j hj
          exact (queue_pass h.distinct howner htopic hj).symm
      · -- another channel: its buffer takes the message
        rw [if_neg hsame]
        have hstill : (stash channels idx (Serialized.adopt msg.data))[i]? = some channel := by
          simp [stash, hsame, hchannel]
        obtain ⟨htakes, hcontinues⟩ := ih (h.tail.stash idx msg.data) hstill
        refine ⟨htakes.of_queue_eq ?_ ?_ ?_, hcontinues.wellFormed, ?_, ?_⟩
        · exact fun j => queue_stash h.distinct hidx j
        · simp [stash]
        · exact fun m hm => List.mem_cons_of_mem _ hm
        · exact hcontinues.topics.trans (stash_topics ..)
        · exact hcontinues.view.trans (List.suffix_cons ..)
    · rw [if_neg hverify]
      refine ⟨.failed _ (fun j => rfl) (.inr ⟨msg, List.mem_cons_self .., ?_⟩), h, rfl,
        List.suffix_refl _⟩
      simpa using hverify

/-- **One read:** it takes the front of its own channel's queue and leaves every other queue
alone. -/
theorem read_takes (verifyBuffer : ByteText → Bool) (viewers : McapTrackerViewers) (i : ℕ)
    (h : WellFormed viewers.channels viewers.view) :
    let result := viewers.read verifyBuffer i
    Takes verifyBuffer i viewers result.2 result.1 ∧ Continues viewers result.2 := by
  simp only [read]
  rcases hchannel : viewers.channels[i]? with _ | channel
  · refine ⟨.failed _ (fun j => rfl) (.inl ?_), h, rfl, List.suffix_refl _⟩
    simpa using hchannel
  · rcases hbuffer : channel.buffer with _ | ⟨front, buffer⟩
    · simpa only [hbuffer] using advance_takes h hchannel hbuffer
    · simp only [hbuffer]
      have hfull : front ≠ none := by
        rintro rfl
        exact h.stashed channel (List.mem_of_getElem? hchannel) (by simp [hbuffer])
      obtain ⟨bytes, rfl⟩ := Option.ne_none_iff_exists'.mp hfull
      refine ⟨.record bytes ?_ ?_, h.unstash i, unstash_topics i, List.suffix_refl _⟩
      · simp [queue_of_channel hchannel, queue_unstash, hchannel, hbuffer]
      · intro j hj
        simp [queue_unstash, hj]

/-! ### A run of reads -/

theorem returned_cons (i j : ℕ) (answer : Except ReplayFailure Serialized)
    (history : List (ℕ × Except ReplayFailure Serialized)) :
    returned i ((j, answer) :: history) =
      (if j = i then (recordOf answer).toList else []) ++ returned i history := by
  by_cases h : j = i
  · cases hrecord : recordOf answer with
    | none => simp [returned, answers, h, hrecord]
    | some record => simp [returned, answers, h, hrecord]
  · simp [returned, answers, h]

/-- One read moves the front of the queue to what was returned. -/
theorem Takes.splits {i : ℕ} {v v' : McapTrackerViewers}
    {answer : Except ReplayFailure Serialized} (h : Takes verifyBuffer i v v' answer) (j : ℕ) :
    (if i = j then (recordOf answer).toList else []) ++ queue v'.channels v'.view j =
      queue v.channels v.view j := by
  by_cases hj : i = j
  · subst hj
    cases h with
    | record bytes front others => simpa [recordOf] using front.symm
    | exhausted empty all => simpa [recordOf] using all i
    | failed failure all cause => simpa [recordOf] using all i
  · rw [if_neg hj]
    cases h with
    | record bytes front others => exact others j (Ne.symm hj)
    | exhausted empty all => exact all j
    | failed failure all cause => exact all j

/-- **Nothing is lost:** what the reads of a channel have returned, followed by its queue, is
the queue the run started with. -/
theorem readAll_splits (viewers : McapTrackerViewers) (calls : List ℕ)
    (h : WellFormed viewers.channels viewers.view) (i : ℕ) :
    let result := viewers.readAll verifyBuffer calls
    returned i result.1 ++ queue result.2.channels result.2.view i =
      queue viewers.channels viewers.view i := by
  induction calls generalizing viewers with
  | nil => rfl
  | cons j calls ih =>
    obtain ⟨htakes, hcontinues⟩ := read_takes verifyBuffer viewers j h
    have hrest := ih _ hcontinues.wellFormed
    simp only [readAll] at hrest ⊢
    rw [returned_cons, List.append_assoc, hrest]
    exact htakes.splits i

/-- **End of data:** an empty handle is answered only once the whole queue was returned. -/
theorem readAll_exhausted (viewers : McapTrackerViewers) (calls : List ℕ)
    (h : WellFormed viewers.channels viewers.view) {i : ℕ}
    {before after : List (ℕ × Except ReplayFailure Serialized)}
    (hend : (viewers.readAll verifyBuffer calls).1 = before ++ (i, .ok none) :: after) :
    returned i before = queue viewers.channels viewers.view i := by
  induction calls generalizing viewers before with
  | nil => simp [readAll] at hend
  | cons j calls ih =>
    obtain ⟨htakes, hcontinues⟩ := read_takes verifyBuffer viewers j h
    simp only [readAll] at hend
    rcases before with _ | ⟨first, before⟩
    · obtain ⟨hfirst, -⟩ := List.cons.inj hend
      obtain ⟨rfl, hanswer⟩ := Prod.mk.inj hfirst
      rw [hanswer] at htakes
      cases htakes with
      | exhausted empty all => simp [empty, returned, answers]
    · obtain ⟨rfl, htail⟩ := List.cons.inj hend
      rw [returned_cons, ih _ hcontinues.wellFormed htail]
      exact htakes.splits i

/-- **When every message verifies**, the reads of a registered channel answer its queue from
the front, and the empty handle from then on. -/
theorem readAll_answers (viewers : McapTrackerViewers) (calls : List ℕ)
    (h : WellFormed viewers.channels viewers.view)
    (hverify : ∀ msg ∈ viewers.view, verifyBuffer msg.data = true) {i : ℕ}
    (hi : i < viewers.channels.length) {k : ℕ} {answer : Except ReplayFailure Serialized}
    (hk : (answers i (viewers.readAll verifyBuffer calls).1)[k]? = some answer) :
    answer = .ok ((queue viewers.channels viewers.view i)[k]?.getD none) := by
  induction calls generalizing viewers k with
  | nil => simp [readAll, answers] at hk
  | cons j calls ih =>
    obtain ⟨htakes, hcontinues⟩ := read_takes verifyBuffer viewers j h
    have hrest := fun {k} => ih (k := k) _ hcontinues.wellFormed
      (fun msg hmsg => hverify msg (hcontinues.view.subset hmsg)) (hcontinues.length ▸ hi)
    simp only [readAll, answers] at hk hrest
    by_cases hj : j = i
    · subst hj
      rw [List.filter_cons_of_pos (by simp), List.map_cons] at hk
      generalize (viewers.read verifyBuffer j).1 = first at htakes hk
      cases htakes with
      | record bytes front others =>
        rw [front]
        rcases k with _ | k
        · simpa using hk.symm
        · simpa using hrest hk
      | exhausted empty all =>
        -- The recording is at its end, and stays there.
        rw [empty]
        rcases k with _ | k
        · simpa using hk.symm
        · have hlater := hrest hk
          rw [all j, empty] at hlater
          simpa using hlater
      | failed failure all cause =>
        -- The channel exists and every message verifies, so nothing fails.
        rcases cause with hrange | ⟨msg, hmsg, hbad⟩
        · omega
        · simp [hverify msg hmsg] at hbad
    · -- A read of another channel takes nothing from this one.
      rw [List.filter_cons_of_neg (by simpa using hj)] at hk
      have hqueue := htakes.splits i
      rw [if_neg hj, List.nil_append] at hqueue
      rw [hrest hk, hqueue]

/-! ### Replaying a recording -/

theorem mcapTopic_injective (baseName : ByteText) : Function.Injective (mcapTopic baseName) := by
  intro a b h
  exact List.append_cancel_left h

variable {baseName : ByteText} {subChannels : List ByteText} {file : List RecordedMessage}

theorem ofRecording_wellFormed (baseName : ByteText) (file : List RecordedMessage)
    (hdistinct : subChannels.Nodup) :
    WellFormed (ofRecording baseName subChannels file).channels
      (ofRecording baseName subChannels file).view := by
  refine ⟨?_, ?_, ?_⟩
  · have htopics : (ofRecording baseName subChannels file).channels.map ChannelBuffer.topic =
        subChannels.map (mcapTopic baseName) := by
      simp [ofRecording]
    rw [htopics]
    exact hdistinct.map (mcapTopic_injective baseName)
  · intro msg hmsg
    exact (List.mem_filter.mp hmsg).2
  · intro channel hchannel
    obtain ⟨sub, -, rfl⟩ := List.mem_map.mp hchannel
    simp

/-- The topic filter admits every message of a registered topic. -/
theorem ofRecording_queue (baseName : ByteText) (file : List RecordedMessage) {i : ℕ}
    {sub : ByteText} (hi : subChannels[i]? = some sub) :
    queue (ofRecording baseName subChannels file).channels
        (ofRecording baseName subChannels file).view i =
      recorded (mcapTopic baseName sub) file := by
  have hchannel : (ofRecording baseName subChannels file).channels[i]? =
      some ⟨mcapTopic baseName sub, []⟩ := by
    simp [ofRecording, hi]
  rw [queue_of_channel hchannel, List.nil_append, recorded, recorded, ofRecording,
    List.filter_filter]
  congr 1
  refine List.filter_congr fun msg _ => ?_
  by_cases htopic : msg.topic = mcapTopic baseName sub
  · have hmem : sub ∈ subChannels := List.mem_of_getElem? hi
    simp only [htopic, channelIndexOf, List.findIdx?_isSome, beq_self_eq_true, Bool.true_and]
    exact List.any_eq_true.mpr ⟨_, List.mem_map_of_mem hmem, by simp⟩
  · simp [htopic]

/-- **Replay demultiplexes:** for every recording and every interleaving of reads, what the
reads of a channel return is an initial part of what was recorded on its topic, in order; the
rest still waits in its queue; the end of data is reported only when all of it was returned;
and if every recorded message verifies, the `k`-th read of a channel answers the `k`-th
message recorded on its topic, or the empty handle when there is none. -/
theorem replay_demultiplexes (verifyBuffer : ByteText → Bool) (baseName : ByteText)
    (subChannels : List ByteText) (hdistinct : subChannels.Nodup) (file : List RecordedMessage)
    (calls : List ℕ) (i : ℕ) (sub : ByteText) (hi : subChannels[i]? = some sub) :
    let result := (ofRecording baseName subChannels file).readAll verifyBuffer calls
    let onTopic := recorded (mcapTopic baseName sub) file
    (∀ (k : ℕ) (record : Serialized),
        (returned i result.1)[k]? = some record → onTopic[k]? = some record) ∧
      returned i result.1 ++ queue result.2.channels result.2.view i = onTopic ∧
      (∀ before after : List (ℕ × Except ReplayFailure Serialized),
        result.1 = before ++ (i, .ok none) :: after → returned i before = onTopic) ∧
      ((∀ msg ∈ file, verifyBuffer msg.data = true) →
        ∀ (k : ℕ) (answer : Except ReplayFailure Serialized),
          (answers i result.1)[k]? = some answer → answer = .ok (onTopic[k]?.getD none)) := by
  intro result onTopic
  have hwf := ofRecording_wellFormed baseName file hdistinct
  have hqueue := ofRecording_queue baseName file hi
  have hsplits : returned i result.1 ++ queue result.2.channels result.2.view i = onTopic :=
    (readAll_splits _ calls hwf i).trans hqueue
  refine ⟨?_, hsplits, ?_, ?_⟩
  · intro k record hk
    have hlt : k < (returned i result.1).length := (List.getElem?_eq_some_iff.mp hk).1
    rw [← hsplits, List.getElem?_append_left hlt, hk]
  · intro before after hend
    exact (readAll_exhausted _ calls hwf hend).trans hqueue
  · intro hverify k answer hk
    have hlt : i < (ofRecording baseName subChannels file).channels.length := by
      simpa [ofRecording] using (List.getElem?_eq_some_iff.mp hi).1
    have hview : ∀ msg ∈ (ofRecording baseName subChannels file).view,
        verifyBuffer msg.data = true := fun msg hmsg => hverify msg (List.mem_filter.mp hmsg).1
    rw [readAll_answers _ calls hwf hview hlt hk, hqueue]

/-- Two hands, recorded left, right, left: the right hand is read first, so the first message
of the left hand is stashed. -/
theorem replay_demultiplexes_two_hands :
    let file : List RecordedMessage := [⟨lit "hands/left", 0, [1]⟩, ⟨lit "hands/right", 0, [2]⟩,
      ⟨lit "other/left", 0, [9]⟩, ⟨lit "hands/left", 1, [3]⟩]
    let result := (ofRecording (lit "hands") [lit "left", lit "right"] file).readAll
      (fun bytes => !bytes.isEmpty) [1, 0, 0, 1, 0]
    returned 0 result.1 = [some [1], some [3]] ∧
      returned 0 result.1 ++ queue result.2.channels result.2.view 0 =
        recorded (mcapTopic (lit "hands") (lit "left")) file := by
  intro file result
  refine ⟨by decide, ?_⟩
  exact (replay_demultiplexes (fun bytes => !bytes.isEmpty) (lit "hands")
    [lit "left", lit "right"] (by decide) file [1, 0, 0, 1, 0] 0 (lit "left") rfl).2.1

end McapTrackerViewers
