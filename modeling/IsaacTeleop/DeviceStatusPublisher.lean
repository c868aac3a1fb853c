/-
The status reports of a plugin's devices.

A plugin offers the status of its devices from its main loop; a report is pushed when something
has changed, and at least once a second as a sign of life.  The consumer takes a report for stale
after three seconds.

* `publishIfChanged` — one call, with its exceptions and what it leaves behind;
* `canonical_eq_iff` — the canonical entries do not depend on the order given;
* `Published` — the publisher against the reports pushed and the calls accepted;
* `device_status_publishing` — when a report is pushed, and how old the newest one gets.
-/
import IsaacTeleop.ByteText
import IsaacTeleop.StatusReduction

namespace PluginUtils

open ByteText

/-! ### The publisher -/

inductive PluginDeviceState
  | unknown
  | connected
  | disconnected
  | degraded
  | failed
  | disabled
  deriving DecidableEq

inductive PluginDeviceReason
  | none
  | noHardwareSignal
  | calibrationFailed
  | noCurrentData
  | deviceError
  | disabledByConfiguration
  deriving DecidableEq

structure PluginDeviceStatusEntry where
  path : ByteText
  state : PluginDeviceState := .unknown
  reason : PluginDeviceReason := .none
  error : ByteText := []
  deriving DecidableEq

/-- What a call may throw. -/
inductive PublishError
  | invalidArgument (what : ByteText)
  | lengthError (what : ByteText)
  | transport
  deriving DecidableEq

def heartbeatPeriodNs : Int64 := 1000000000

def defaultMaxFlatbufferSize : ℕ := 4096

/-- `std::string` compares its bytes as unsigned numbers. -/
def PluginDeviceStatusEntry.order (entry : PluginDeviceStatusEntry) : List ℕ :=
  entry.path.map UInt8.toNat

/-- The loop over the sorted entries, with the path of the entry before. -/
def checkPaths : Option ByteText → List PluginDeviceStatusEntry → Except PublishError Unit
  | _, [] => .ok ()
  | previous, entry :: entries =>
    if entry.path = [] then
      .error (.invalidArgument (lit "PluginDeviceStatusPublisher device paths must not be empty"))
    else if previous = some entry.path then
      .error (.invalidArgument
        (lit "PluginDeviceStatusPublisher device paths must be unique: " ++ entry.path))
    else checkPaths (some entry.path) entries

def sortEntries (entries : List PluginDeviceStatusEntry) : List PluginDeviceStatusEntry :=
  entries.mergeSort fun left right => decide (left.order ≤ right.order)

/-- `validate_and_canonicalize` -/
def validateAndCanonicalize (entries : List PluginDeviceStatusEntry) :
    Except PublishError (List PluginDeviceStatusEntry) :=
  match checkPaths none (sortEntries entries) with
  | .error e => .error e
  | .ok () => .ok (sortEntries entries)

structure PluginDeviceStatusPublisher where
  latestEntries : List PluginDeviceStatusEntry := []
  lastPublishNs : Int64 := 0
  hasPublished : Bool := false
  deriving DecidableEq

/-- A report as the transport takes it. -/
structure StatusReport where
  devices : List PluginDeviceStatusEntry
  reportTimeNs : Int64
  deriving DecidableEq

/-- One call, with what the transport does with a report. -/
structure StatusCall where
  entries : List PluginDeviceStatusEntry
  nowNs : Int64
  delivered : Bool := true

section

variable (packedSize : StatusReport → ℕ)

/-- `push_snapshot`; `packedSize` is the size of the report as a flatbuffer. -/
def pushSnapshot (report : StatusReport) (delivered : Bool) : Except PublishError Unit :=
  if packedSize report > defaultMaxFlatbufferSize then
    .error (.lengthError
      (lit "PluginDeviceStatusPublisher snapshot exceeds the tracker maximum size"))
  else if delivered then .ok ()
  else .error .transport

/-- `publish_if_changed`: its result or exception, the publisher after it, and what it pushed. -/
def publishIfChanged (publisher : PluginDeviceStatusPublisher) (call : StatusCall) :
    Except PublishError Bool × PluginDeviceStatusPublisher × List StatusReport :=
  match validateAndCanonicalize call.entries with
  | .error e => (.error e, publisher, [])
  | .ok canonicalEntries =>
    if publisher.hasPublished ∧ call.nowNs < publisher.lastPublishNs then
      (.error (.invalidArgument (lit "PluginDeviceStatusPublisher now_ns must be monotonic")),
        publisher, [])
    else
      let changed := !publisher.hasPublished || canonicalEntries ≠ publisher.latestEntries
      let heartbeatDue := publisher.hasPublished &&
        decide (call.nowNs - publisher.lastPublishNs ≥ heartbeatPeriodNs)
      if !changed && !heartbeatDue then (.ok false, publisher, [])
      else
        let report : StatusReport := ⟨canonicalEntries, call.nowNs⟩
        match pushSnapshot packedSize report call.delivered with
        | .error e => (.error e, publisher, [])
        | .ok () => (.ok true, ⟨canonicalEntries, call.nowNs, true⟩, [report])

/-- The publisher, the reports pushed, and the times of the calls that did not throw. -/
structure PublisherRun where
  publisher : PluginDeviceStatusPublisher := {}
  pushed : List StatusReport := []
  accepted : List ℤ := []
  deriving DecidableEq

def PublisherRun.next (run : PublisherRun) (call : StatusCall) : PublisherRun :=
  match publishIfChanged packedSize run.publisher call with
  | (.error _, publisher, reports) => { run with
      publisher := publisher
      pushed := run.pushed ++ reports }
  | (.ok _, publisher, reports) =>
    ⟨publisher, run.pushed ++ reports, run.accepted ++ [call.nowNs.toInt]⟩

def publisherRun (calls : List StatusCall) : PublisherRun :=
  calls.foldl (PublisherRun.next packedSize) {}

end

/-! ### Canonical entries -/

theorem sortEntries_perm (entries : List PluginDeviceStatusEntry) :
    (sortEntries entries).Perm entries := List.mergeSort_perm _ _

theorem sortEntries_sorted (entries : List PluginDeviceStatusEntry) :
    (sortEntries entries).Pairwise fun left right => left.order ≤ right.order := by
  have hsorted := @List.pairwise_mergeSort PluginDeviceStatusEntry
    (fun left right => decide (left.order ≤ right.order)) (fun a b c hab hbc => by
      simp only [decide_eq_true_eq] at hab hbc ⊢
      exact le_trans hab hbc)
    (fun a b => by
      simp only [Bool.or_eq_true, decide_eq_true_eq]
      exact le_total _ _) entries
  exact hsorted.imp fun h => of_decide_eq_true h

theorem checkPaths_chain {entries : List PluginDeviceStatusEntry} {previous : Option ByteText}
    (h : checkPaths previous entries = .ok ()) :
    entries.IsChain (fun left right => left.path ≠ right.path) ∧
      ∀ entry ∈ entries.head?, previous ≠ some entry.path := by
  induction entries generalizing previous with
  | nil => exact ⟨List.isChain_nil, by simp⟩
  | cons entry entries ih =>
    rw [checkPaths] at h
    split at h
    · cases h
    split at h
    · cases h
    rename_i hprevious
    obtain ⟨hchain, hhead⟩ := ih h
    refine ⟨?_, fun e he => ?_⟩
    · rw [List.isChain_cons]
      exact ⟨fun next hnext heq => hhead next hnext (congrArg some heq), hchain⟩
    · rwa [← Option.some_inj.mp he]

theorem order_injective {left right : PluginDeviceStatusEntry} (h : left.order = right.order) :
    left.path = right.path :=
  List.map_injective_iff.mpr (fun _ _ => UInt8.toNat_inj.mp) h

/-- Accepted entries are sorted, with different paths. -/
theorem validateAndCanonicalize_ok {entries canonical : List PluginDeviceStatusEntry}
    (h : validateAndCanonicalize entries = .ok canonical) :
    canonical.Perm entries ∧
      canonical.Pairwise fun left right => left.order < right.order := by
  rw [validateAndCanonicalize] at h
  split at h
  · cases h
  · rename_i hcheck
    obtain rfl := Except.ok.inj h
    refine ⟨sortEntries_perm entries, ?_⟩
    -- Neighbours differ, so the order is strict.
    have hchain := List.isChain_iff_getElem.mp (checkPaths_chain hcheck).1
    have hle := List.isChain_iff_getElem.mp (sortEntries_sorted entries).isChain
    have hlt : (sortEntries entries).IsChain fun left right => left.order < right.order := by
      rw [List.isChain_iff_getElem]
      intro i hi
      exact lt_of_le_of_ne (hle i hi) fun heq => hchain i hi (order_injective heq)
    have htrans : IsTrans PluginDeviceStatusEntry fun left right => left.order < right.order :=
      ⟨fun _ _ _ => lt_trans⟩
    exact List.isChain_iff_pairwise.mp hlt

theorem checkPaths_error {entries : List PluginDeviceStatusEntry} {previous : Option ByteText}
    {e : PublishError} (h : checkPaths previous entries = .error e) :
    ∃ what, e = .invalidArgument what := by
  induction entries generalizing previous with
  | nil => cases h
  | cons entry entries ih =>
    rw [checkPaths] at h
    split at h
    · exact ⟨_, (Except.error.inj h).symm⟩
    split at h
    · exact ⟨_, (Except.error.inj h).symm⟩
    · exact ih h

theorem validateAndCanonicalize_error {entries : List PluginDeviceStatusEntry} {e : PublishError}
    (h : validateAndCanonicalize entries = .error e) : ∃ what, e = .invalidArgument what := by
  rw [validateAndCanonicalize] at h
  split at h
  · rename_i e' hcheck
    obtain ⟨what, rfl⟩ := checkPaths_error hcheck
    exact ⟨what, (Except.error.inj h).symm⟩
  · cases h

/-- **The order of the entries does not matter.** -/
theorem canonical_eq_iff {entries other canonical canonical' : List PluginDeviceStatusEntry}
    (h : validateAndCanonicalize entries = .ok canonical)
    (h' : validateAndCanonicalize other = .ok canonical') :
    canonical = canonical' ↔ entries.Perm canonical' := by
  obtain ⟨hperm, hsorted⟩ := validateAndCanonicalize_ok h
  obtain ⟨-, hsorted'⟩ := validateAndCanonicalize_ok h'
  constructor
  · rintro rfl
    exact hperm.symm
  · intro hsame
    refine (hperm.trans hsame).eq_of_pairwise ?_ hsorted hsorted'
    intro a b _ _ hab hba
    exact absurd (hab.trans hba) (lt_irrefl _)

/-! ### One call -/

section

variable {packedSize : StatusReport → ℕ}

/-- A report is due: it is the first one, the entries differ, or the last one is a second old. -/
def Due (publisher : PluginDeviceStatusPublisher) (canonical : List PluginDeviceStatusEntry)
    (nowNs : Int64) : Prop :=
  publisher.hasPublished = false ∨ canonical ≠ publisher.latestEntries ∨
    nowNs - publisher.lastPublishNs ≥ heartbeatPeriodNs

/-- What a call may do. -/
inductive CallStep (publisher : PluginDeviceStatusPublisher) (call : StatusCall) :
    Except PublishError Bool × PluginDeviceStatusPublisher × List StatusReport → Prop
  | refused (what : ByteText) :
      CallStep publisher call (.error (.invalidArgument what), publisher, [])
  | failed (e : PublishError) (canonical : List PluginDeviceStatusEntry)
      (hvalid : validateAndCanonicalize call.entries = .ok canonical)
      (htime : publisher.hasPublished = true → publisher.lastPublishNs ≤ call.nowNs)
      (hdue : Due publisher canonical call.nowNs) :
      CallStep publisher call (.error e, publisher, [])
  | kept (canonical : List PluginDeviceStatusEntry)
      (hvalid : validateAndCanonicalize call.entries = .ok canonical)
      (htime : publisher.hasPublished = true → publisher.lastPublishNs ≤ call.nowNs)
      (hdue : ¬ Due publisher canonical call.nowNs) :
      CallStep publisher call (.ok false, publisher, [])
  | pushed (canonical : List PluginDeviceStatusEntry)
      (hvalid : validateAndCanonicalize call.entries = .ok canonical)
      (htime : publisher.hasPublished = true → publisher.lastPublishNs ≤ call.nowNs)
      (hdue : Due publisher canonical call.nowNs) :
      CallStep publisher call
        (.ok true, ⟨canonical, call.nowNs, true⟩, [⟨canonical, call.nowNs⟩])

theorem not_due_iff (publisher : PluginDeviceStatusPublisher)
    (canonical : List PluginDeviceStatusEntry) (nowNs : Int64) :
    (!(!publisher.hasPublished || decide (canonical ≠ publisher.latestEntries)) &&
        !(publisher.hasPublished &&
          decide (nowNs - publisher.lastPublishNs ≥ heartbeatPeriodNs))) = true ↔
      ¬ Due publisher canonical nowNs := by
  unfold Due
  cases publisher.hasPublished <;> simp

theorem publishIfChanged_step (publisher : PluginDeviceStatusPublisher) (call : StatusCall) :
    CallStep publisher call (publishIfChanged packedSize publisher call) := by
  rw [publishIfChanged]
  cases hvalid : validateAndCanonicalize call.entries with
  | error e =>
    obtain ⟨what, rfl⟩ := validateAndCanonicalize_error hvalid
    exact .refused what
  | ok canonical =>
    dsimp only
    split
    · exact .refused _
    -- Time has not gone back, so the call is kept or pushed.
    rename_i hmonotonic
    have htime : publisher.hasPublished = true → publisher.lastPublishNs ≤ call.nowNs := by
      intro h
      exact Int64.not_lt.mp fun hlt => hmonotonic ⟨h, hlt⟩
    split
    · rename_i hkept
      exact .kept canonical hvalid htime ((not_due_iff _ _ _).mp hkept)
    rename_i hpush
    have hdue : Due publisher canonical call.nowNs :=
      not_not.mp (mt (not_due_iff _ _ _).mpr hpush)
    split
    · exact .failed _ canonical hvalid htime hdue
    · exact .pushed canonical hvalid htime hdue

/-- The difference of two times does not overflow. -/
theorem heartbeat_iff {last now : Int64} (hlast : 0 ≤ last) (hle : last ≤ now) :
    now - last ≥ heartbeatPeriodNs ↔ last.toInt + 1000000000 ≤ now.toInt := by
  have hlast' : 0 ≤ last.toInt := Int64.le_iff_toInt_le.mp hlast
  have hle' : last.toInt ≤ now.toInt := Int64.le_iff_toInt_le.mp hle
  have hnow := now.toInt_lt
  have hsub : (now - last).toInt = now.toInt - last.toInt := by
    rw [Int64.toInt_sub]
    exact Int.bmod_eq_of_le (by omega) (by omega)
  have hperiod : heartbeatPeriodNs.toInt = 1000000000 := rfl
  rw [ge_iff_le, Int64.le_iff_toInt_le, hsub, hperiod]
  omega

/-! ### Runs -/

/-- The publisher holds the newest report, which at the last accepted call, made at `a`, was less
than a second old. -/
structure Newest (run : PublisherRun) (report : StatusReport) (a : ℤ) : Prop where
  pushed : run.pushed.getLast? = some report
  publisher : run.publisher = ⟨report.devices, report.reportTimeNs, true⟩
  canonical : ∃ entries, validateAndCanonicalize entries = .ok report.devices
  nonneg : 0 ≤ report.reportTimeNs
  le : report.reportTimeNs.toInt ≤ a
  lt : a < report.reportTimeNs.toInt + 1000000000

/-- The state of a run: nothing has happened, or there is a newest report. -/
def Published (run : PublisherRun) : Prop :=
  (run.accepted = [] ∧ run.publisher = {} ∧ run.pushed = []) ∨
    ∃ a report, run.accepted.getLast? = some a ∧ Newest run report a

theorem PublisherRun.next_error {run : PublisherRun} {call : StatusCall} {e : PublishError}
    (h : (publishIfChanged packedSize run.publisher call).1 = .error e) :
    run.next packedSize call = run := by
  have hstep := @publishIfChanged_step packedSize run.publisher call
  rw [PublisherRun.next]
  generalize publishIfChanged packedSize run.publisher call = result at h hstep ⊢
  cases hstep with
  | refused => simp
  | failed => simp
  | kept => cases h
  | pushed => cases h

theorem Published.next {run : PublisherRun} (h : Published run) {call : StatusCall}
    (hnow : 0 ≤ call.nowNs) : Published (run.next packedSize call) := by
  have hstep := @publishIfChanged_step packedSize run.publisher call
  rw [PublisherRun.next]
  generalize publishIfChanged packedSize run.publisher call = result at hstep ⊢
  cases hstep with
  | refused => simpa using h
  | failed => simpa using h
  | kept canonical hvalid htime hdue =>
    rcases h with ⟨-, hpublisher, -⟩ | ⟨a, report, -, hnewest⟩
    · -- The first report is due.
      exact absurd (.inl (by rw [hpublisher])) hdue
    · refine .inr ⟨call.nowNs.toInt, report, by simp, ?_⟩
      have hle : report.reportTimeNs ≤ call.nowNs := by
        rw [hnewest.publisher] at htime
        exact htime rfl
      have hfresh : ¬ call.nowNs - report.reportTimeNs ≥ heartbeatPeriodNs := by
        rw [hnewest.publisher] at hdue
        exact fun hperiod => hdue (.inr (.inr hperiod))
      rw [heartbeat_iff hnewest.nonneg hle] at hfresh
      exact ⟨by simpa using hnewest.pushed, hnewest.publisher, hnewest.canonical, hnewest.nonneg,
        Int64.le_iff_toInt_le.mp hle, by omega⟩
  | pushed canonical hvalid htime hdue =>
    refine .inr ⟨call.nowNs.toInt, ⟨canonical, call.nowNs⟩, by simp, ?_⟩
    exact ⟨by simp, rfl, ⟨call.entries, hvalid⟩, hnow, le_rfl, by dsimp only; omega⟩

theorem publisherRun_append (calls : List StatusCall) (call : StatusCall) :
    publisherRun packedSize (calls ++ [call]) =
      (publisherRun packedSize calls).next packedSize call := by
  rw [publisherRun, List.foldl_append]
  rfl

theorem publisherRun_published {calls : List StatusCall} (h : ∀ call ∈ calls, 0 ≤ call.nowNs) :
    Published (publisherRun packedSize calls) := by
  induction calls using List.reverseRecOn with
  | nil => exact .inl ⟨rfl, rfl, rfl⟩
  | append_singleton calls call ih =>
    rw [publisherRun_append]
    refine (ih fun c hc => h c (List.mem_append_left _ hc)).next ?_
    exact h call (List.mem_append_right _ (List.mem_singleton_self _))

/-- A report is due against the newest one. -/
theorem Newest.due_iff {run : PublisherRun} {report : StatusReport} {a : ℤ}
    (h : Newest run report a) {call : StatusCall} {canonical : List PluginDeviceStatusEntry}
    (hvalid : validateAndCanonicalize call.entries = .ok canonical)
    (htime : run.publisher.hasPublished = true → run.publisher.lastPublishNs ≤ call.nowNs) :
    Due run.publisher canonical call.nowNs ↔ ¬ call.entries.Perm report.devices ∨
      report.reportTimeNs.toInt + 1000000000 ≤ call.nowNs.toInt := by
  obtain ⟨entries, hcanonical⟩ := h.canonical
  rw [h.publisher] at htime ⊢
  have hle : report.reportTimeNs ≤ call.nowNs := htime rfl
  rw [Due, heartbeat_iff h.nonneg hle, ne_eq, canonical_eq_iff hvalid hcanonical]
  simp

/-- What the next call is due for, over the history of the run. -/
def DueAfter (run : PublisherRun) (call : StatusCall) : Prop :=
  run.accepted = [] ∨ ∃ report, run.pushed.getLast? = some report ∧
    (¬ call.entries.Perm report.devices ∨
      report.reportTimeNs.toInt + 1000000000 ≤ call.nowNs.toInt)

theorem Published.due_iff {run : PublisherRun} (h : Published run) {call : StatusCall}
    {canonical : List PluginDeviceStatusEntry}
    (hvalid : validateAndCanonicalize call.entries = .ok canonical)
    (htime : run.publisher.hasPublished = true → run.publisher.lastPublishNs ≤ call.nowNs) :
    Due run.publisher canonical call.nowNs ↔ DueAfter run call := by
  rcases h with ⟨haccepted, hpublisher, -⟩ | ⟨a, report, haccepted, hnewest⟩
  · refine iff_of_true (.inl ?_) (.inl haccepted)
    rw [hpublisher]
  · rw [hnewest.due_iff hvalid htime]
    constructor
    · intro hdue
      exact .inr ⟨report, hnewest.pushed, hdue⟩
    · rintro (hnil | ⟨report', hpushed, hdue⟩)
      · rw [hnil] at haccepted
        cases haccepted
      · rwa [Option.some_inj.mp (hnewest.pushed.symm.trans hpushed)]

theorem DueAfter.later {run : PublisherRun} {call call' : StatusCall} (h : DueAfter run call)
    (hentries : call'.entries = call.entries) (hle : call.nowNs ≤ call'.nowNs) :
    DueAfter run call' := by
  have hle' := Int64.le_iff_toInt_le.mp hle
  rcases h with hnil | ⟨report, hpushed, hperm | hage⟩
  · exact .inl hnil
  · exact .inr ⟨report, hpushed, .inl (by rwa [hentries])⟩
  · exact .inr ⟨report, hpushed, .inr (by omega)⟩

/-- A call that does not throw pushes exactly what is due. -/
theorem Published.pushes {run : PublisherRun} (h : Published run) {call : StatusCall} {b : Bool}
    (hresult : (publishIfChanged packedSize run.publisher call).1 = .ok b) :
    (b = true ↔ DueAfter run call) ∧
      ∃ canonical, validateAndCanonicalize call.entries = .ok canonical ∧
        (run.next packedSize call).pushed =
          run.pushed ++ if b then [⟨canonical, call.nowNs⟩] else [] := by
  have hstep := @publishIfChanged_step packedSize run.publisher call
  rw [PublisherRun.next]
  generalize publishIfChanged packedSize run.publisher call = result at hresult hstep ⊢
  cases hstep with
  | refused => cases hresult
  | failed => cases hresult
  | kept canonical hvalid htime hdue =>
    obtain rfl := Except.ok.inj hresult
    rw [h.due_iff hvalid htime] at hdue
    exact ⟨iff_of_false Bool.false_ne_true hdue, canonical, hvalid, rfl⟩
  | pushed canonical hvalid htime hdue =>
    obtain rfl := Except.ok.inj hresult
    rw [h.due_iff hvalid htime] at hdue
    exact ⟨iff_of_true rfl hdue, canonical, hvalid, rfl⟩

/-- A push that failed is due again at the next call. -/
theorem Published.retried {run : PublisherRun} (h : Published run) {call call' : StatusCall}
    {e : PublishError} (hresult : (publishIfChanged packedSize run.publisher call).1 = .error e)
    (he : ∀ what, e ≠ .invalidArgument what) (hentries : call'.entries = call.entries)
    (hle : call.nowNs ≤ call'.nowNs) :
    (publishIfChanged packedSize run.publisher call').1 ≠ .ok false := by
  have hstep := @publishIfChanged_step packedSize run.publisher call
  generalize publishIfChanged packedSize run.publisher call = result at hresult hstep
  cases hstep with
  | refused what => exact absurd (Except.error.inj hresult).symm (he what)
  | failed e' canonical hvalid htime hdue =>
    intro hkept
    rw [h.due_iff hvalid htime] at hdue
    exact Bool.false_ne_true ((h.pushes hkept).1.mpr (hdue.later hentries hle))
  | kept => cases hresult
  | pushed => cases hresult

end

/-- **Device status publishing.**  Whatever the calls, with times that are not negative: a call
that does not throw pushes a report exactly when no call was accepted before, the entries are not
those of the newest report in some order, or that is at least a second old; a call that throws
leaves the publisher and what was pushed as they were, and if the push itself failed, the same
entries are pushed again by the next call; and when accepted calls are at most `D` apart, the
newest report is less than a second and `D` old at any time between two of them, within the
staleness limit of the consumer if `D` is below two seconds. -/
theorem device_status_publishing (packedSize : StatusReport → ℕ) (calls : List StatusCall)
    (hcalls : ∀ call ∈ calls, 0 ≤ call.nowNs) :
    (∀ (call : StatusCall) (b : Bool),
      (publishIfChanged packedSize (publisherRun packedSize calls).publisher call).1 = .ok b →
      (b = true ↔ DueAfter (publisherRun packedSize calls) call) ∧
        ∃ canonical, canonical.Perm call.entries ∧
          (publisherRun packedSize (calls ++ [call])).pushed =
            (publisherRun packedSize calls).pushed ++
              if b then [⟨canonical, call.nowNs⟩] else []) ∧
    (∀ (call : StatusCall) (e : PublishError),
      (publishIfChanged packedSize (publisherRun packedSize calls).publisher call).1 = .error e →
      publisherRun packedSize (calls ++ [call]) = publisherRun packedSize calls ∧
        ((∀ what, e ≠ .invalidArgument what) → ∀ call' : StatusCall,
          call'.entries = call.entries → call.nowNs ≤ call'.nowNs →
          (publishIfChanged packedSize (publisherRun packedSize (calls ++ [call])).publisher
            call').1 ≠ .ok false)) ∧
    ∀ (later : List StatusCall) (D a b t : ℤ) (rest : List ℤ),
      (publisherRun packedSize (calls ++ later)).accepted.IsChain (fun x y => y ≤ x + D) →
      (publisherRun packedSize calls).accepted.getLast? = some a →
      (publisherRun packedSize (calls ++ later)).accepted =
        (publisherRun packedSize calls).accepted ++ b :: rest →
      a ≤ t → t ≤ b →
      ∃ report, (publisherRun packedSize calls).pushed.getLast? = some report ∧
        report.reportTimeNs.toInt ≤ t ∧
        t - report.reportTimeNs.toInt < 1000000000 + D ∧
        (D < 2000000000 →
          t - report.reportTimeNs.toInt < StatusMonitoring.reportStaleAfterNs) := by
  have hrun := @publisherRun_published packedSize calls hcalls
  refine ⟨fun call b hresult => ?_, fun call e hresult => ?_, ?_⟩
  · obtain ⟨hdue, canonical, hvalid, hpushed⟩ := hrun.pushes hresult
    rw [publisherRun_append]
    exact ⟨hdue, canonical, (validateAndCanonicalize_ok hvalid).1, hpushed⟩
  · rw [publisherRun_append, PublisherRun.next_error hresult]
    exact ⟨rfl, fun he call' hentries hle => hrun.retried hresult he hentries hle⟩
  · intro later D a b t rest hgaps hlast hnext hat htb
    -- The next accepted call is at most `D` after the last one.
    have hgap : b ≤ a + D := by
      rw [hnext, List.isChain_append] at hgaps
      exact hgaps.2.2 a hlast b rfl
    rcases hrun with ⟨hnil, -⟩ | ⟨a', report, hlast', hnewest⟩
    · rw [hnil] at hlast
      cases hlast
    · obtain rfl : a' = a := Option.some_inj.mp (hlast'.symm.trans hlast)
      have hle := hnewest.le
      have hlt := hnewest.lt
      refine ⟨report, hnewest.pushed, by omega, by omega, fun hD => ?_⟩
      rw [StatusMonitoring.reportStaleAfterNs]
      omega

/-- A glove that is connected, offered at the given time. -/
def gloveCall (nowNs : Int64) : StatusCall := ⟨[⟨lit "/left", .connected, .none, []⟩], nowNs, true⟩

/-- The glove is offered again half a second later. -/
theorem newest_report_after_half_a_second :
    ∃ report, (publisherRun (fun _ => 100) [gloveCall 10]).pushed.getLast? = some report ∧
      (500000010 : ℤ) - report.reportTimeNs.toInt < 1500000000 ∧
      (500000010 : ℤ) - report.reportTimeNs.toInt < StatusMonitoring.reportStaleAfterNs := by
  have hvalid : ∀ nowNs, validateAndCanonicalize (gloveCall nowNs).entries =
      .ok [⟨lit "/left", .connected, .none, []⟩] := by
    intro nowNs
    have hsort : sortEntries (gloveCall nowNs).entries =
        [⟨lit "/left", .connected, .none, []⟩] := List.mergeSort_singleton _
    rw [validateAndCanonicalize, hsort]
    rfl
  -- The first call is published at once.
  have hfirst : publisherRun (fun _ => 100) [gloveCall 10] =
      ⟨⟨[⟨lit "/left", .connected, .none, []⟩], 10, true⟩,
        [⟨[⟨lit "/left", .connected, .none, []⟩], 10⟩], [10]⟩ := by
    rw [publisherRun, List.foldl_cons, List.foldl_nil, PublisherRun.next, publishIfChanged, hvalid]
    rfl
  have hsecond : (publisherRun (fun _ => 100) ([gloveCall 10] ++ [gloveCall 500000010])).accepted =
      [10, 500000010] := by
    rw [publisherRun_append, hfirst, PublisherRun.next, publishIfChanged, hvalid]
    rfl
  obtain ⟨report, hpushed, -, hage, hstale⟩ := (device_status_publishing (fun _ => 100)
    [gloveCall 10] (by decide)).2.2 [gloveCall 500000010] 500000000 10 500000010 500000010 []
    (by rw [hsecond]; decide) (by rw [hfirst]; rfl) (by rw [hsecond, hfirst]; rfl) (by decide)
    le_rfl
  exact ⟨report, hpushed, hage, hstale (by decide)⟩

end PluginUtils
