/-
A plugin's device report is applied as a whole or not at all.

`_reduce_report` checks the version and the time, collects the entries by path, and then
builds the new statuses in a second loop.  Whatever fails on the way leaves every device
unknown, with one reason and one error.

* `collectEntries_ok_iff`, `reduceEntry_ok_iff`, `reduceEntries_ok_iff` — the two loops;
* `reduceReportBody_cases` — what the body can do;
* `report_all_or_nothing` — every device tuple with distinct paths and every report.
-/
import IsaacTeleop.StatusConsistency

open StatusMonitoring

namespace StatusMonitoring

/-! ### What a report says -/

/-- The path an entry names, if it can be read and is a string. -/
def ReportEntry.path? (entry : ReportEntry) : Option String :=
  match entry.path with
  | .ok object => object.str?
  | .error _ => none

/-- The entry has a valid state/reason pair and a string error; they mean these values. -/
structure ReportEntry.Reports (entry : ReportEntry) (status : DeviceState) (reason : StatusReason)
    (error : String) : Prop where
  pair : ∃ stateName reasonName, entry.state = .ok stateName ∧ entry.reason = .ok reasonName ∧
    (stateName, reasonName) ∈ validPluginDeviceStateReasonPairs ∧
    pluginDeviceState stateName = some status ∧ pluginDeviceReason reasonName = some reason
  error : ∃ object, entry.error = .ok object ∧ object.str? = some error

/-- A report of version 1, neither from the future nor stale, whose entries name exactly the
device paths, each once, and are all valid. -/
structure Report.Applies (report : Report) (devices : List DeviceStatus) (nowNs : ℤ)
    (entries : List ReportEntry) : Prop where
  version : ∃ object, report.schemaVersion = .ok object ∧
    object.int? = some StatusMonitoring.schemaVersion
  time : ∃ object reportTimeNs, report.reportTimeNs = .ok object ∧
    object.int? = some reportTimeNs ∧ 0 ≤ reportTimeNs ∧ reportTimeNs ≤ nowNs ∧
    nowNs - reportTimeNs ≤ reportStaleAfterNs
  read : report.devices = .ok entries
  paths : (entries.map ReportEntry.path?).Perm (devices.map fun device => some device.path)
  valid : ∀ entry ∈ entries, ∃ status reason error, entry.Reports status reason error

/-- Every device keeps its place and what identifies it, and gets the values of the entry
under its own path. -/
def Applied (entries : List ReportEntry) (devices reduced : List DeviceStatus) : Prop :=
  List.Forall₂ (fun device device' => device'.toDeviceInfo = device.toDeviceInfo ∧
    ∃ entry ∈ entries, entry.path? = some device.path ∧
      entry.Reports device'.status device'.reason device'.error) devices reduced

/-- Reading some attribute raises what is no `Exception`. -/
def Report.Interrupts (report : Report) : Prop :=
  report.schemaVersion = .error .baseException ∨ report.reportTimeNs = .error .baseException ∨
    report.devices = .error .baseException ∨
    ∃ entries, report.devices = .ok entries ∧ ∃ entry ∈ entries,
      entry.path = .error .baseException ∨ entry.state = .error .baseException ∨
      entry.reason = .error .baseException ∨ entry.error = .error .baseException

theorem ReportEntry.path?_eq_some {entry : ReportEntry} {path : String} :
    entry.path? = some path ↔ ∃ object, entry.path = .ok object ∧ object.str? = some path := by
  rw [ReportEntry.path?]
  constructor
  · intro h
    cases hpath : entry.path with
    | error e =>
      rw [hpath] at h
      cases h
    | ok object =>
      rw [hpath] at h
      exact ⟨object, rfl, h⟩
  · rintro ⟨object, hpath, hstr⟩
    rw [hpath]
    exact hstr

/-- An entry means one triple of values. -/
theorem ReportEntry.Reports.unique {entry : ReportEntry} {status status' : DeviceState}
    {reason reason' : StatusReason} {error error' : String}
    (h : entry.Reports status reason error) (h' : entry.Reports status' reason' error') :
    status = status' ∧ reason = reason' ∧ error = error' := by
  obtain ⟨stateName, reasonName, hs, hr, -, hstatus, hreason⟩ := h.pair
  obtain ⟨stateName', reasonName', hs', hr', -, hstatus', hreason'⟩ := h'.pair
  obtain ⟨object, ho, herror⟩ := h.error
  obtain ⟨object', ho', herror'⟩ := h'.error
  obtain rfl := Except.ok.inj (hs.symm.trans hs')
  obtain rfl := Except.ok.inj (hr.symm.trans hr')
  obtain rfl := Except.ok.inj (ho.symm.trans ho')
  exact ⟨Option.some.inj (hstatus.symm.trans hstatus'),
    Option.some.inj (hreason.symm.trans hreason'), Option.some.inj (herror.symm.trans herror')⟩

/-! ### The first loop -/

section Loops

variable {expected : List String}

/-- One round of the first loop, on an entry whose path can be read. -/
theorem collectEntries_cons {entry : ReportEntry} {rest : List ReportEntry} {path : String}
    (d : OrderedDict String ReportEntry) (hpath : entry.path? = some path) (hne : path ≠ "")
    (hnew : path ∉ d.keys) (hmem : path ∈ expected) :
    collectEntries expected (entry :: rest) d
      = collectEntries expected rest (d.insert path entry) := by
  obtain ⟨object, hobject, hstr⟩ := ReportEntry.path?_eq_some.mp hpath
  rw [collectEntries, hobject]
  dsimp only
  rw [hstr]
  dsimp only
  rw [if_neg hne, if_neg hnew, if_neg (not_not_intro hmem)]

/-- A round of the first loop that does not raise. -/
theorem collectEntries_cons_ok {entry : ReportEntry} {rest : List ReportEntry}
    {d d' : OrderedDict String ReportEntry}
    (h : collectEntries expected (entry :: rest) d = .ok d') :
    ∃ path, entry.path? = some path ∧ path ≠ "" ∧ path ∉ d.keys ∧ path ∈ expected := by
  rw [collectEntries] at h
  cases hobject : entry.path with
  | error e =>
    rw [hobject] at h
    cases h
  | ok object =>
    rw [hobject] at h
    dsimp only at h
    cases hstr : object.str? with
    | none =>
      rw [hstr] at h
      cases h
    | some path =>
      rw [hstr] at h
      dsimp only at h
      split at h
      case isTrue => cases h
      case isFalse hne =>
        split at h
        case isTrue => cases h
        case isFalse hnew =>
          split at h
          case isTrue => cases h
          case isFalse hmem =>
            exact ⟨path, ReportEntry.path?_eq_some.mpr ⟨object, hobject, hstr⟩, hne, hnew,
              not_not.mp hmem⟩

theorem insert_entries_of_new {d : OrderedDict String ReportEntry} {path : String}
    (entry : ReportEntry) (hnew : path ∉ d.keys) :
    (d.insert path entry).entries = d.entries ++ [(path, entry)] := by
  rw [OrderedDict.insert, dif_neg hnew]

theorem insert_keys_of_new {d : OrderedDict String ReportEntry} {path : String}
    (entry : ReportEntry) (hnew : path ∉ d.keys) :
    (d.insert path entry).keys = d.keys ++ [path] := by
  rw [OrderedDict.keys, insert_entries_of_new entry hnew, List.map_append]
  rfl

/-- **The first loop**: it returns exactly if the paths can be read, are not empty, are
expected ones and are new, and then it holds the entries under their paths. -/
theorem collectEntries_ok_iff {entries : List ReportEntry}
    {d d' : OrderedDict String ReportEntry} :
    collectEntries expected entries d = .ok d' ↔
      ∃ paths : List String, entries.map ReportEntry.path? = paths.map some ∧
        (∀ path ∈ paths, path ≠ "" ∧ path ∈ expected) ∧ (d.keys ++ paths).Nodup ∧
        d'.entries = d.entries ++ paths.zip entries := by
  induction entries generalizing d with
  | nil =>
    constructor
    · intro h
      cases h
      refine ⟨[], rfl, fun path hp => (by cases hp), ?_, by simp⟩
      rw [List.append_nil]
      exact d'.nodup
    · rintro ⟨paths, hpaths, -, -, hentries⟩
      obtain rfl : paths = [] := List.map_eq_nil_iff.mp hpaths.symm
      refine congrArg Except.ok (OrderedDict.ext ?_)
      simpa using hentries.symm
  | cons entry rest ih =>
    -- The first entry is taken if its path is expected and new.
    constructor
    · intro h
      obtain ⟨path, hpath, hne, hnew, hmem⟩ := collectEntries_cons_ok h
      rw [collectEntries_cons d hpath hne hnew hmem] at h
      obtain ⟨paths, hpaths, hall, hnodup, hentries⟩ := ih.mp h
      rw [insert_keys_of_new entry hnew, List.append_assoc] at hnodup
      rw [insert_entries_of_new entry hnew, List.append_assoc] at hentries
      refine ⟨path :: paths, ?_, ?_, hnodup, hentries⟩
      · rw [List.map_cons, List.map_cons, hpath, hpaths]
      · intro p hp
        rcases List.mem_cons.mp hp with rfl | hp
        · exact ⟨hne, hmem⟩
        · exact hall p hp
    · rintro ⟨paths, hpaths, hall, hnodup, hentries⟩
      cases paths with
      | nil => cases hpaths
      | cons path paths =>
        rw [List.map_cons, List.map_cons] at hpaths
        obtain ⟨hpath, hpaths⟩ := List.cons.inj hpaths
        obtain ⟨hne, hmem⟩ := hall path List.mem_cons_self
        have hnew : path ∉ d.keys := fun hold =>
          List.disjoint_of_nodup_append hnodup hold List.mem_cons_self
        rw [collectEntries_cons d hpath hne hnew hmem]
        refine ih.mpr ⟨paths, hpaths, fun p hp => hall p (List.mem_cons_of_mem _ hp), ?_, ?_⟩
        · rw [insert_keys_of_new entry hnew, List.append_assoc]
          exact hnodup
        · rw [insert_entries_of_new entry hnew, List.append_assoc]
          exact hentries

/-- Only a path that cannot be read interrupts the first loop. -/
theorem collectEntries_interrupted {entries : List ReportEntry}
    {d : OrderedDict String ReportEntry}
    (h : collectEntries expected entries d = .error .baseException) :
    ∃ entry ∈ entries, entry.path = .error .baseException := by
  induction entries generalizing d with
  | nil => cases h
  | cons entry rest ih =>
    rw [collectEntries] at h
    cases hobject : entry.path with
    | error e =>
      rw [hobject] at h
      cases h
      exact ⟨entry, List.mem_cons_self, hobject⟩
    | ok object =>
      rw [hobject] at h
      dsimp only at h
      cases hstr : object.str? with
      | none =>
        rw [hstr] at h
        cases h
      | some path =>
        rw [hstr] at h
        dsimp only at h
        split at h
        case isTrue => cases h
        case isFalse =>
          split at h
          case isTrue => cases h
          case isFalse =>
            split at h
            case isTrue => cases h
            case isFalse =>
              obtain ⟨entry', hmem, hpath⟩ := ih h
              exact ⟨entry', List.mem_cons_of_mem _ hmem, hpath⟩

/-! ### The second loop -/

variable [PythonRepr]

/-- **One round of the second loop**: the device with the values its entry means. -/
theorem reduceEntry_ok_iff {device device' : DeviceStatus} {entry : ReportEntry} :
    reduceEntry device entry = .ok device' ↔ device'.toDeviceInfo = device.toDeviceInfo ∧
      entry.Reports device'.status device'.reason device'.error := by
  constructor
  · intro h
    refine ⟨StatusMonitor.reduceEntry_info h, ?_⟩
    rw [reduceEntry] at h
    obtain ⟨stateName, hs, h⟩ := StatusMonitor.polled_bind_inv h
    -- The state, the reason, the two together and the error are checked in this order.
    cases hstate : pluginDeviceState stateName with
    | none =>
      rw [hstate] at h
      cases h
    | some state =>
      rw [hstate] at h
      obtain ⟨reasonName, hr, h⟩ := StatusMonitor.polled_bind_inv h
      cases hreason : pluginDeviceReason reasonName with
      | none =>
        rw [hreason] at h
        cases h
      | some reason =>
        rw [hreason] at h
        dsimp only at h
        split at h
        case isTrue => cases h
        case isFalse hpair =>
          obtain ⟨object, ho, h⟩ := StatusMonitor.polled_bind_inv h
          cases hstr : object.str? with
          | none =>
            rw [hstr] at h
            cases h
          | some error =>
            rw [hstr] at h
            cases h
            exact ⟨⟨stateName, reasonName, hs, hr, not_not.mp hpair, hstate, hreason⟩,
              ⟨object, ho, hstr⟩⟩
  · rintro ⟨hinfo, hreports⟩
    obtain ⟨stateName, reasonName, hs, hr, hpair, hstate, hreason⟩ := hreports.pair
    obtain ⟨object, ho, hstr⟩ := hreports.error
    rw [reduceEntry, hs]
    dsimp only [bind, Except.bind]
    rw [hstate, hr]
    dsimp only
    rw [hreason]
    dsimp only
    rw [if_neg (not_not_intro hpair), ho]
    dsimp only
    rw [hstr, ← hinfo]
    rfl

/-- Only an attribute that cannot be read interrupts a round of the second loop. -/
theorem reduceEntry_interrupted {device : DeviceStatus} {entry : ReportEntry}
    (h : reduceEntry device entry = .error .baseException) :
    entry.state = .error .baseException ∨ entry.reason = .error .baseException ∨
      entry.error = .error .baseException := by
  rw [reduceEntry] at h
  cases hs : entry.state with
  | error e =>
    rw [hs] at h
    cases h
    exact Or.inl rfl
  | ok stateName =>
    -- Only the three accessors of an entry can be interrupted; every check of the reducer is an error
    -- of its own.
    rw [hs] at h
    dsimp only [bind, Except.bind] at h
    split at h
    case h_1 => cases h
    case h_2 =>
      cases hr : entry.reason with
      | error e =>
        rw [hr] at h
        cases h
        exact Or.inr (Or.inl rfl)
      | ok reasonName =>
        rw [hr] at h
        dsimp only at h
        split at h
        case h_1 => cases h
        case h_2 =>
          split at h
          case isTrue => cases h
          case isFalse =>
            cases ho : entry.error with
            | error e =>
              rw [ho] at h
              cases h
              exact Or.inr (Or.inr rfl)
            | ok object =>
              rw [ho] at h
              dsimp only at h
              split at h
              case h_1 => cases h
              case h_2 => cases h

/-- **The second loop.** -/
theorem reduceEntries_ok_iff {d : OrderedDict String ReportEntry}
    {devices reduced : List DeviceStatus} :
    reduceEntries d devices = .ok reduced ↔
      List.Forall₂ (fun device device' => device'.toDeviceInfo = device.toDeviceInfo ∧
        ∃ entry, d.get? device.path = some entry ∧
          entry.Reports device'.status device'.reason device'.error) devices reduced := by
  induction devices generalizing reduced with
  | nil =>
    constructor
    · intro h
      cases h
      exact .nil
    · intro h
      cases h
      rfl
  | cons device rest ih =>
    rw [reduceEntries]
    constructor
    · intro h
      cases hget : d.get? device.path with
      | none =>
        rw [hget] at h
        cases h
      | some entry =>
        rw [hget] at h
        obtain ⟨device', hdevice, h⟩ := StatusMonitor.polled_bind_inv h
        obtain ⟨others, hothers, h⟩ := StatusMonitor.polled_bind_inv h
        cases h
        obtain ⟨hinfo, hreports⟩ := reduceEntry_ok_iff.mp hdevice
        exact .cons ⟨hinfo, entry, hget, hreports⟩ (ih.mp hothers)
    · intro h
      cases h with
      | cons hhead hrest =>
        obtain ⟨hinfo, entry, hget, hreports⟩ := hhead
        rw [hget]
        dsimp only
        rw [reduceEntry_ok_iff.mpr ⟨hinfo, hreports⟩, ih.mpr hrest]
        rfl

/-- Only an attribute that cannot be read interrupts the second loop. -/
theorem reduceEntries_interrupted {d : OrderedDict String ReportEntry}
    {devices : List DeviceStatus} (h : reduceEntries d devices = .error .baseException) :
    ∃ path entry, d.get? path = some entry ∧ (entry.state = .error .baseException ∨
      entry.reason = .error .baseException ∨ entry.error = .error .baseException) := by
  induction devices with
  | nil => cases h
  | cons device rest ih =>
    rw [reduceEntries] at h
    cases hget : d.get? device.path with
    | none =>
      rw [hget] at h
      cases h
    | some entry =>
      rw [hget] at h
      dsimp only at h
      cases hdevice : reduceEntry device entry with
      | error e =>
        rw [hdevice] at h
        cases h
        exact ⟨device.path, entry, hget, reduceEntry_interrupted hdevice⟩
      | ok device' =>
        rw [hdevice] at h
        cases hothers : reduceEntries d rest with
        | error e =>
          rw [hothers] at h
          cases h
          exact ih hothers
        | ok others =>
          rw [hothers] at h
          cases h

end Loops

/-! ### The whole reduction -/

/-- Entries zipped with their own paths. -/
theorem path?_of_mem_zip {entries : List ReportEntry} {paths : List String}
    (h : entries.map ReportEntry.path? = paths.map some) {path : String} {entry : ReportEntry}
    (hmem : (path, entry) ∈ paths.zip entries) : entry ∈ entries ∧ entry.path? = some path := by
  refine ⟨(List.of_mem_zip hmem).2, ?_⟩
  induction entries generalizing paths with
  | nil =>
    rw [List.zip_nil_right] at hmem
    cases hmem
  | cons e rest ih =>
    cases paths with
    | nil => cases h
    | cons p paths =>
      rw [List.map_cons, List.map_cons] at h
      obtain ⟨hpath, hpaths⟩ := List.cons.inj h
      rw [List.zip_cons_cons] at hmem
      rcases List.mem_cons.mp hmem with heq | hmem
      · cases heq
        exact hpath
      · exact ih hpaths hmem

/-- The dictionary the first loop returns: each entry under its own path. -/
theorem collected {expected : List String} {entries : List ReportEntry}
    {d : OrderedDict String ReportEntry} (h : collectEntries expected entries ∅ = .ok d) :
    entries.map ReportEntry.path? = d.keys.map some ∧
      (∀ path ∈ d.keys, path ≠ "" ∧ path ∈ expected) ∧
      ∀ path entry, d.get? path = some entry → entry ∈ entries ∧ entry.path? = some path := by
  obtain ⟨paths, hpaths, hall, -, hentries⟩ := collectEntries_ok_iff.mp h
  have hentries' : d.entries = paths.zip entries := by simpa using hentries
  have hlength : paths.length ≤ entries.length := by
    have := congrArg List.length hpaths
    simp only [List.length_map] at this
    omega
  have hkeys : d.keys = paths := by
    rw [OrderedDict.keys, hentries', List.map_fst_zip hlength]
  rw [hkeys]
  refine ⟨hpaths, hall, fun path entry hget => ?_⟩
  have hmem := OrderedDict.mem_of_get? hget
  rw [hentries'] at hmem
  exact path?_of_mem_zip hpaths hmem

/-- Permuted entries make the same report applicable. -/
theorem Report.Applies.perm {devices : List DeviceStatus} {report : Report} {nowNs : ℤ}
    {entries entries' : List ReportEntry}
    (h : report.Applies devices nowNs entries) (hperm : entries'.Perm entries) :
    Report.Applies { report with devices := .ok entries' } devices nowNs entries' where
  version := h.version
  time := h.time
  read := rfl
  paths := (hperm.map _).trans h.paths
  valid := fun entry hentry => h.valid entry (hperm.mem_iff.mp hentry)

theorem deviceStatus_eq {device device' : DeviceStatus}
    (hinfo : device.toDeviceInfo = device'.toDeviceInfo) (hstatus : device.status = device'.status)
    (hreason : device.reason = device'.reason) (herror : device.error = device'.error) :
    device = device' := by
  cases device
  cases device'
  cases hinfo
  cases hstatus
  cases hreason
  cases herror
  rfl

/-- Distinct paths leave one way to apply the entries. -/
theorem Applied.unique {devices : List DeviceStatus} {entries entries' : List ReportEntry}
    (hnodup : (entries.map ReportEntry.path?).Nodup) (hperm : entries'.Perm entries)
    {reduced reduced' : List DeviceStatus} (h : Applied entries devices reduced)
    (h' : Applied entries' devices reduced') : reduced = reduced' := by
  induction h generalizing reduced' with
  | nil =>
    cases h'
    rfl
  | cons hhead hrest ih =>
    cases h' with
    | cons hhead' hrest' =>
      obtain ⟨hinfo, entry, hentry, hpath, hreports⟩ := hhead
      obtain ⟨hinfo', entry', hentry', hpath', hreports'⟩ := hhead'
      obtain rfl := List.inj_on_of_nodup_map hnodup (hperm.mem_iff.mp hentry') hentry
        (hpath'.trans hpath.symm)
      obtain ⟨hstatus, hreason, herror⟩ := hreports.unique hreports'
      rw [deviceStatus_eq (hinfo.trans hinfo'.symm) hstatus hreason herror, ih hrest']

section Reduction

variable [PythonRepr] {devices : List DeviceStatus} {report : Report} {nowNs : ℤ}

/-- The second loop returns if every device finds a valid entry. -/
theorem reduceEntries_of_valid {d : OrderedDict String ReportEntry}
    (h : ∀ device ∈ devices, ∃ entry, d.get? device.path = some entry ∧
      ∃ status reason error, entry.Reports status reason error) :
    ∃ reduced, reduceEntries d devices = .ok reduced := by
  induction devices with
  | nil => exact ⟨[], rfl⟩
  | cons device rest ih =>
    obtain ⟨entry, hget, status, reason, error, hreports⟩ := h device List.mem_cons_self
    obtain ⟨others, hothers⟩ := ih fun device' hmem => h device' (List.mem_cons_of_mem _ hmem)
    refine ⟨{ device with status := status, reason := reason, error := error } :: others, ?_⟩
    exact reduceEntries_ok_iff.mpr
      (.cons ⟨rfl, entry, hget, hreports⟩ (reduceEntries_ok_iff.mp hothers))

/-- The two loops of the body, with the check for missing paths between them. -/
def loops (devices : List DeviceStatus) (entries : List ReportEntry) :
    Polled (List DeviceStatus) := do
  let expectedPaths := (devices.map fun device => device.path).eraseDups
  let entriesByPath ← collectEntries expectedPaths entries ∅
  let missingPaths := expectedPaths.filter fun path => path ∉ entriesByPath.keys
  if missingPaths ≠ [] then
    let listed := (missingPaths.mergeSort fun a b => decide (a ≤ b)).map PythonRepr.repr
    .error (.exception ("plugin status report is missing device paths ["
      ++ ", ".intercalate listed ++ "]"))
  else reduceEntries entriesByPath devices

/-- The body on a report whose version and time are accepted: the two loops. -/
theorem reduceReportBody_eq {version reportTime : PyObject} {reportTimeNs : ℤ}
    {entries : List ReportEntry} (hversion : report.schemaVersion = .ok version)
    (hone : version.int? = some StatusMonitoring.schemaVersion)
    (htime : report.reportTimeNs = .ok reportTime) (hint : reportTime.int? = some reportTimeNs)
    (hrange : 0 ≤ reportTimeNs ∧ reportTimeNs ≤ nowNs)
    (hfresh : nowNs - reportTimeNs ≤ reportStaleAfterNs) (hread : report.devices = .ok entries) :
    reduceReportBody devices report nowNs = loops devices entries := by
  have hnot : ¬ (reportTimeNs < 0 ∨ reportTimeNs > nowNs) := by omega
  have hnotStale : ¬ nowNs - reportTimeNs > reportStaleAfterNs := by omega
  rw [reduceReportBody, hversion]
  dsimp only [bind, Except.bind]
  rw [if_neg (not_not_intro hone), htime]
  dsimp only
  rw [hint]
  dsimp only
  rw [if_neg hnot, if_neg hnotStale, hread]
  rfl

/-- **An applicable report is applied.** -/
theorem reduceReportBody_of_applies (hnodup : (devices.map fun device => device.path).Nodup)
    {entries : List ReportEntry} (h : report.Applies devices nowNs entries)
    (hne : ∀ device ∈ devices, device.path ≠ "") :
    ∃ reduced, reduceReportBody devices report nowNs = .ok reduced ∧
      Applied entries devices reduced := by
  obtain ⟨version, hversion, hone⟩ := h.version
  obtain ⟨reportTime, reportTimeNs, htime, hint, hlow, hhigh, hfresh⟩ := h.time
  set paths := devices.map fun device => device.path with hdef
  -- the entries' own paths, a permutation of those of the devices
  have hsome : ∀ p ∈ entries.map ReportEntry.path?, ∃ path ∈ paths, p = some path := by
    intro p hp
    obtain ⟨device, hdevice, rfl⟩ := List.mem_map.mp (h.paths.mem_iff.mp hp)
    exact ⟨device.path, List.mem_map.mpr ⟨device, hdevice, rfl⟩, rfl⟩
  obtain ⟨own, hown⟩ : ∃ own : List String, entries.map ReportEntry.path? = own.map some := by
    refine ⟨(entries.map ReportEntry.path?).filterMap id, ?_⟩
    rw [List.map_filterMap]
    refine ((List.filterMap_congr (g := fun p => some p) fun p hp => ?_).trans
      (List.filterMap_some)).symm
    obtain ⟨path, -, rfl⟩ := hsome p hp
    rfl
  have hperm : own.Perm paths := by
    refine (List.map_perm_map_iff (Option.some_injective _)).mp ?_
    rw [← hown, hdef, List.map_map]
    exact h.paths
  have hmem : ∀ path, path ∈ own ↔ path ∈ paths.eraseDups := fun path =>
    hperm.mem_iff.trans List.mem_eraseDups.symm
  have hlength : own.length ≤ entries.length := by
    have := congrArg List.length hown
    simp only [List.length_map] at this
    omega
  have hkeys : (own.zip entries).map Prod.fst = own := List.map_fst_zip hlength
  have hown' : own.Nodup := hperm.nodup_iff.mpr hnodup
  let d : OrderedDict String ReportEntry := ⟨own.zip entries, hkeys.symm ▸ hown'⟩
  have hcollect : collectEntries paths.eraseDups entries ∅ = .ok d := by
    refine collectEntries_ok_iff.mpr ⟨own, hown, fun path hp => ⟨?_, (hmem path).mp hp⟩, ?_, rfl⟩
    · obtain ⟨device, hdevice, rfl⟩ := List.mem_map.mp (hperm.mem_iff.mp hp)
      exact hne device hdevice
    · exact hown'
  have hmissing : (paths.eraseDups.filter fun path => path ∉ d.keys) = [] := by
    refine List.filter_eq_nil_iff.mpr fun path hp => ?_
    have hin : path ∈ d.keys := by
      show path ∈ (own.zip entries).map Prod.fst
      rw [hkeys]
      exact (hmem path).mpr hp
    simpa using hin
  obtain ⟨-, -, hget⟩ := collected hcollect
  have hvalid : ∀ device ∈ devices, ∃ entry, d.get? device.path = some entry ∧
      ∃ status reason error, entry.Reports status reason error := by
    intro device hdevice
    have hin : device.path ∈ d.keys := by
      show device.path ∈ (own.zip entries).map Prod.fst
      rw [hkeys]
      exact hperm.mem_iff.mpr (List.mem_map.mpr ⟨device, hdevice, rfl⟩)
    obtain ⟨entry, hentry⟩ := OrderedDict.mem_keys.mp hin
    exact ⟨entry, hentry, h.valid entry (hget _ _ hentry).1⟩
  obtain ⟨reduced, hreduced⟩ := reduceEntries_of_valid hvalid
  refine ⟨reduced, ?_, ?_⟩
  · rw [reduceReportBody_eq hversion hone htime hint ⟨hlow, hhigh⟩ hfresh h.read, loops]
    dsimp only [bind, Except.bind]
    rw [hcollect]
    dsimp only
    rw [if_neg (not_not_intro hmissing)]
    exact hreduced
  · refine (reduceEntries_ok_iff.mp hreduced).imp fun device device' hpair => ?_
    obtain ⟨hinfo, entry, hentry, hreports⟩ := hpair
    exact ⟨hinfo, entry, (hget _ _ hentry).1, (hget _ _ hentry).2, hreports⟩

/-- The reasons a refused report gives; no entry has one of them. -/
def refusalReasons : List StatusReason :=
  [.noReport, .unsupportedSchemaVersion, .staleReport, .malformedReport]

theorem loops_interrupted {entries : List ReportEntry}
    (h : loops devices entries = .error .baseException) : ∃ entry ∈ entries,
      entry.path = .error .baseException ∨ entry.state = .error .baseException ∨
      entry.reason = .error .baseException ∨ entry.error = .error .baseException := by
  rw [loops] at h
  dsimp only [bind, Except.bind] at h
  cases hcollect : collectEntries (devices.map fun device => device.path).eraseDups entries ∅ with
  | error e =>
    rw [hcollect] at h
    cases h
    obtain ⟨entry, hmem, hpath⟩ := collectEntries_interrupted hcollect
    exact ⟨entry, hmem, Or.inl hpath⟩
  | ok d =>
    rw [hcollect] at h
    dsimp only at h
    split at h
    case isTrue => cases h
    case isFalse =>
      obtain ⟨path, entry, hget, hattribute⟩ := reduceEntries_interrupted h
      exact ⟨entry, ((collected hcollect).2.2 path entry hget).1, Or.inr hattribute⟩

/-- Loops that return went over exactly the device paths, none of them empty, and over
valid entries. -/
theorem loops_ok (hnodup : (devices.map fun device => device.path).Nodup)
    {entries : List ReportEntry} {reduced : List DeviceStatus}
    (h : loops devices entries = .ok reduced) :
    (entries.map ReportEntry.path?).Perm (devices.map fun device => some device.path) ∧
      (∀ entry ∈ entries, ∃ status reason error, entry.Reports status reason error) ∧
      ∀ device ∈ devices, device.path ≠ "" := by
  rw [loops] at h
  obtain ⟨d, hcollect, h⟩ := StatusMonitor.polled_bind_inv h
  dsimp only at h
  split at h
  case isTrue => cases h
  case isFalse hmissing =>
    obtain ⟨hpaths, hall, hget⟩ := collected hcollect
    -- nothing unknown and nothing missing: the keys are the device paths
    have hmem : ∀ path, path ∈ d.keys ↔ path ∈ devices.map fun device => device.path := by
      intro path
      constructor
      · intro hp
        exact List.mem_eraseDups.mp (hall path hp).2
      · intro hp
        have hnot := List.filter_eq_nil_iff.mp (not_not.mp hmissing) path
          (List.mem_eraseDups.mpr hp)
        simpa using hnot
    have hperm : d.keys.Perm (devices.map fun device => device.path) :=
      (List.perm_ext_iff_of_nodup d.nodup hnodup).mpr hmem
    refine ⟨?_, ?_, ?_⟩
    · rw [hpaths]
      have := hperm.map some
      rwa [List.map_map] at this
    · intro entry hentry
      have hsome : entry.path? ∈ d.keys.map some := hpaths ▸ List.mem_map_of_mem hentry
      obtain ⟨path, hkey, hpath⟩ := List.mem_map.mp hsome
      obtain ⟨device, hdevice, rfl⟩ := List.mem_map.mp ((hmem path).mp hkey)
      obtain ⟨device', -, -, entry', hget', hreports⟩ :=
        StatusMonitor.forall₂_mem_right (reduceEntries_ok_iff.mp h).flip hdevice
      -- the entry under the device's path is this one, since no two have one path
      obtain ⟨hentry', hpath'⟩ := hget _ _ hget'
      have hinj : (entries.map ReportEntry.path?).Nodup := by
        rw [hpaths]
        exact d.nodup.map (Option.some_injective _)
      obtain rfl := List.inj_on_of_nodup_map hinj hentry' hentry (hpath'.trans hpath)
      exact ⟨_, _, _, hreports⟩
    · intro device hdevice
      exact (hall _ ((hmem _).mpr (List.mem_map.mpr ⟨device, hdevice, rfl⟩))).1

/-- Only an attribute that cannot be read interrupts the body. -/
theorem reduceReportBody_interrupted
    (h : reduceReportBody devices report nowNs = .error .baseException) : report.Interrupts := by
  rw [reduceReportBody] at h
  dsimp only [bind, Except.bind] at h
  cases hversion : report.schemaVersion with
  | error e =>
    rw [hversion] at h
    cases h
    exact Or.inl hversion
  | ok version =>
    -- The report's own fields in the order they are read, then its entries.
    rw [hversion] at h
    dsimp only at h
    split at h
    case isTrue => cases h
    case isFalse =>
      cases htime : report.reportTimeNs with
      | error e =>
        rw [htime] at h
        cases h
        exact Or.inr (Or.inl htime)
      | ok reportTime =>
        rw [htime] at h
        dsimp only at h
        split at h
        case h_1 => cases h
        case h_2 reportTimeNs hint =>
          split at h
          case isTrue => cases h
          case isFalse =>
            split at h
            case isTrue => cases h
            case isFalse =>
              cases hread : report.devices with
              | error e =>
                rw [hread] at h
                cases h
                exact Or.inr (Or.inr (Or.inl hread))
              | ok entries =>
                rw [hread] at h
                exact Or.inr (Or.inr (Or.inr ⟨entries, hread, loops_interrupted h⟩))

/-- **A body that returned**: it refused the report, or the report was applicable. -/
theorem reduceReportBody_ok_cases (hnodup : (devices.map fun device => device.path).Nodup)
    {reduced : List DeviceStatus} (h : reduceReportBody devices report nowNs = .ok reduced) :
    (∃ reason ∈ refusalReasons, ∃ error, reduced = unknownDevices devices reason error) ∨
      ∃ entries, report.Applies devices nowNs entries ∧ ∀ device ∈ devices, device.path ≠ "" := by
  rw [reduceReportBody] at h
  obtain ⟨version, hversion, h⟩ := StatusMonitor.polled_bind_inv h
  split at h
  case isTrue =>
    cases h
    exact Or.inl ⟨.unsupportedSchemaVersion, by decide, _, rfl⟩
  case isFalse hone =>
    obtain ⟨reportTime, htime, h⟩ := StatusMonitor.polled_bind_inv h
    split at h
    case h_1 => cases h
    case h_2 reportTimeNs hint =>
      split at h
      case isTrue => cases h
      case isFalse hrange =>
        dsimp only at h
        split at h
        case isTrue =>
          cases h
          exact Or.inl ⟨.staleReport, by decide, _, rfl⟩
        -- The report is of this schema and in time, so its entries are read.
        case isFalse hfresh =>
          obtain ⟨entries, hread, h⟩ := StatusMonitor.polled_bind_inv h
          have htimes : 0 ≤ reportTimeNs ∧ reportTimeNs ≤ nowNs ∧
              nowNs - reportTimeNs ≤ reportStaleAfterNs := by omega
          obtain ⟨hpaths, hvalid, hne⟩ := loops_ok hnodup h
          exact Or.inr ⟨entries, ⟨⟨version, hversion, not_not.mp hone⟩,
            ⟨reportTime, reportTimeNs, htime, hint, htimes⟩, hread, hpaths, hvalid⟩, hne⟩

theorem reduceReport_of_body {reduced : List DeviceStatus}
    (h : reduceReportBody devices report nowNs = .ok reduced) :
    reduceReport devices (some report) nowNs = .ok reduced := by
  rw [reduceReport, h]

/-- **A report is applied as a whole or not at all, in any order of its entries.**  Let the
devices have distinct paths.  Whatever the report is, `_reduce_report` raises only what reading
an attribute raised that is no `Exception`; what it returns has the same devices in the same
order; an applicable report, where no device path is empty, gives each device its own entry's
values, and so does every permutation of its entries; any other report leaves all devices
unknown with one reason, which no entry can give, and one error. -/
theorem report_all_or_nothing (devices : List DeviceStatus)
    (hnodup : (devices.map fun device => device.path).Nodup) (report : Option Report)
    (nowNs : ℤ) :
    (∀ e, reduceReport devices report nowNs = .error e →
      e = .baseException ∧ ∃ r, report = some r ∧ r.Interrupts) ∧
    (∀ reduced, reduceReport devices report nowNs = .ok reduced →
      StatusMonitor.infos reduced = StatusMonitor.infos devices) ∧
    (∀ r entries, report = some r → r.Applies devices nowNs entries →
      (∀ device ∈ devices, device.path ≠ "") →
      ∃ reduced, reduceReport devices report nowNs = .ok reduced ∧
        Applied entries devices reduced ∧
        ∀ entries', List.Perm entries' entries →
          reduceReport devices (some { r with devices := .ok entries' }) nowNs = .ok reduced) ∧
    ((¬ ∃ r entries, report = some r ∧ r.Applies devices nowNs entries ∧
        ∀ device ∈ devices, device.path ≠ "") →
      (∃ reason ∈ refusalReasons, ∃ error,
        reduceReport devices report nowNs = .ok (unknownDevices devices reason error)) ∨
      reduceReport devices report nowNs = .error .baseException) := by
  refine ⟨?_, fun reduced h => StatusMonitor.reduceReport_infos h, ?_, ?_⟩
  · intro e h
    cases report with
    | none => cases h
    | some r =>
      rw [reduceReport] at h
      split at h
      case h_1 => cases h
      case h_2 => cases h
      case h_3 hbody =>
        cases h
        exact ⟨rfl, r, rfl, reduceReportBody_interrupted hbody⟩
  · rintro r entries rfl happlies hne
    obtain ⟨reduced, hbody, happlied⟩ := reduceReportBody_of_applies hnodup happlies hne
    refine ⟨reduced, reduceReport_of_body hbody, happlied, fun entries' hperm => ?_⟩
    obtain ⟨reduced', hbody', happlied'⟩ :=
      reduceReportBody_of_applies hnodup (happlies.perm hperm) hne
    -- The entries name each device once, so their order does not matter.
    have hentries : (entries.map ReportEntry.path?).Nodup := by
      refine happlies.paths.nodup_iff.mpr ?_
      have := hnodup.map (Option.some_injective _)
      rwa [List.map_map] at this
    rw [Applied.unique hentries hperm happlied happlied']
    exact reduceReport_of_body hbody'
  · intro hnot
    cases report with
    | none => exact Or.inl ⟨.noReport, by decide, "", rfl⟩
    | some r =>
      rw [reduceReport]
      split
      case h_1 reduced hbody =>
        rcases reduceReportBody_ok_cases hnodup hbody with ⟨reason, hmem, error, rfl⟩ | happlies
        · exact Or.inl ⟨reason, hmem, error, rfl⟩
        · -- The report would have applied.
          obtain ⟨entries, happlies, hne⟩ := happlies
          exact absurd ⟨r, entries, rfl, happlies, hne⟩ hnot
      case h_2 text hbody => exact Or.inl ⟨.malformedReport, by decide, text, rfl⟩
      case h_3 hbody => exact Or.inr rfl

end Reduction

/-! ### One glove and its report -/

/-- A string as a polled object. -/
def pyStr (s : String) : PyObject := { isNone := false, int? := none, str? := some s, repr := s }

/-- An integer as a polled object. -/
def pyInt (n : ℤ) : PyObject :=
  { isNone := false, int? := some n, str? := none, repr := toString n }

def gloveAt (path : String) : DeviceStatus where
  id := "manus/glove"
  path := path
  type := "glove"
  description := ""
  providerId := "plugin/manus"
  status := .unknown
  reason := .noReport
  error := ""

def connectedEntry (path : String) : ReportEntry where
  path := .ok (pyStr path)
  state := .ok "CONNECTED"
  reason := .ok "NONE"
  error := .ok (pyStr "")

def gloveReport (path : String) : Report where
  schemaVersion := .ok (pyInt 1)
  reportTimeNs := .ok (pyInt 5)
  devices := .ok [connectedEntry path]

theorem connectedEntry_reports (path : String) :
    (connectedEntry path).Reports .connected .none "" :=
  ⟨⟨"CONNECTED", "NONE", rfl, rfl, by decide, rfl, rfl⟩, pyStr "", rfl, rfl⟩

theorem gloveReport_applies (path : String) :
    (gloveReport path).Applies [gloveAt path] 7 [connectedEntry path] where
  version := ⟨pyInt 1, rfl, rfl⟩
  time := ⟨pyInt 5, 5, rfl, rfl, by decide, by decide, by decide⟩
  read := rfl
  paths := List.Perm.refl _
  valid := by
    intro entry hentry
    obtain rfl := List.mem_singleton.mp hentry
    exact ⟨_, _, _, connectedEntry_reports path⟩

theorem glove_report_applied : ∃ reduced,
    @reduceReport ⟨id⟩ [gloveAt "/glove"] (some (gloveReport "/glove")) 7 = .ok reduced ∧
      Applied [connectedEntry "/glove"] [gloveAt "/glove"] reduced := by
  have hne : ∀ device ∈ [gloveAt "/glove"], device.path ≠ "" := by
    intro device hdevice
    obtain rfl := List.mem_singleton.mp hdevice
    decide
  obtain ⟨reduced, hok, happlied, -⟩ := (@report_all_or_nothing ⟨id⟩ [gloveAt "/glove"]
    (List.nodup_singleton _) (some (gloveReport "/glove")) 7).2.2.1 _ _ rfl
    (gloveReport_applies "/glove") hne
  exact ⟨reduced, hok, happlied⟩

/-- A device with an empty path: its report has every property asked for, and is refused.  And
a `BaseException` raised by reading an attribute gets out. -/
theorem empty_path_refused :
    ([gloveAt ""].map fun device => device.path).Nodup ∧
      (gloveReport "").Applies [gloveAt ""] 7 [connectedEntry ""] ∧
      @reduceReport ⟨id⟩ [gloveAt ""] (some (gloveReport "")) 7
        = .ok (unknownDevices [gloveAt ""] .malformedReport
            "plugin status report contains an empty device path") ∧
      (¬ ∃ reduced, @reduceReport ⟨id⟩ [gloveAt ""] (some (gloveReport "")) 7 = .ok reduced ∧
        Applied [connectedEntry ""] [gloveAt ""] reduced) ∧
      @reduceReport ⟨id⟩ [] (some { gloveReport "" with schemaVersion := .error .baseException }) 7
        = .error .baseException := by
  have hresult : @reduceReport ⟨id⟩ [gloveAt ""] (some (gloveReport "")) 7
      = .ok (unknownDevices [gloveAt ""] .malformedReport
          "plugin status report contains an empty device path") := by decide
  refine ⟨List.nodup_singleton _, gloveReport_applies "", hresult, ?_, rfl⟩
  rintro ⟨reduced, hok, happlied⟩
  obtain rfl := Except.ok.inj (hresult.symm.trans hok)
  cases happlied with
  | cons hhead _ =>
    obtain ⟨-, entry, hentry, -, hreports⟩ := hhead
    obtain rfl := List.mem_singleton.mp hentry
    have hstatus := (hreports.unique (connectedEntry_reports "")).1
    cases hstatus

end StatusMonitoring
