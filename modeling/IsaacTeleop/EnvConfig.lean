/-
The environment of the CloudXR service.

Defaults, launcher defaults, the process environment and an env file are merged; four variables are
computed.  The result is applied to `os.environ` and written as a shell file, which
`read_exported_env` reads back.

* `EnvInputs.loadResolveAndApply`, `readExportedEnv` — the code;
* `EnvInputs.precedence` — what a variable is to be: where its value comes from;
* `EnvInputs.env_precedence` — the resolved environment is that;
* `exported_env` — when the file and `os.environ` agree with it.
-/
import IsaacTeleop.OrderedDict
import IsaacTeleop.ShellText

open PyStr

namespace EnvConfig

/-- `os.environ` -/
abbrev Environ := PyStr → Option PyStr

abbrev Env := OrderedDict PyStr PyStr

/-- The value of a key in a list of entries. -/
def value? {κ α : Type} [DecidableEq κ] (l : List (κ × α)) (k : κ) : Option α := l.lookup k

/-! ### The env file -/

/-- `str.partition("=")`, if there is one. -/
def partition (s : PyStr) : Option (PyStr × PyStr) :=
  if 61 ∈ s then some (s.takeWhile (· ≠ 61), (s.dropWhile (· ≠ 61)).tail) else none

/-- A line of `_load_env_file`; `expand` expands variables and `~`. -/
def loadLine (expand : PyStr → PyStr) (result : Env) (raw : PyStr) : Env :=
  let line := strip raw
  if line = [] ∨ line.head? = some 35 then result
  else
    match partition line with
    | none => result
    | some (key, value) =>
      if strip key = [] then result else result.insert (strip key) (expand (strip value))

/-- `_load_env_file` -/
def loadEnvFile (expand : PyStr → PyStr) (text : PyStr) : Env :=
  ((universalNewlines text).splitOn 10).foldl (loadLine expand) ∅

/-! ### Merging -/

/-- `out[k] = v` unless `v` is `None`. -/
def assign (out : Env) (entry : PyStr × Option PyStr) : Env :=
  match entry.2 with
  | some v => out.insert entry.1 v
  | none => out

/-- `_merge_env` -/
def mergeEnv (defaults overrides : List (PyStr × Option PyStr)) : Env :=
  overrides.foldl assign
    ((defaults.map fun entry => (entry.1, entry.2.filter (· ≠ []))).foldl assign ∅)

def resolvedOnlyKeys : List PyStr :=
  [ofString "XR_RUNTIME_JSON", ofString "XRT_NO_STDIN", ofString "NV_CXR_RUNTIME_DIR",
    ofString "NV_CXR_OUTPUT_DIR"]

/-- `_DEFAULT_ENV` -/
def defaultEnv : List (PyStr × Option PyStr) :=
  [(ofString "XR_RUNTIME_JSON", none), (ofString "NV_CXR_RUNTIME_DIR", none),
    (ofString "NV_CXR_OUTPUT_DIR", none),
    (ofString "NV_CXR_ENABLE_PUSH_DEVICES", some (ofString "true")),
    (ofString "NV_CXR_ENABLE_TENSOR_DATA", some (ofString "true")),
    (ofString "NV_CXR_FILE_LOGGING", some (ofString "true")),
    (ofString "NV_DEVICE_PROFILE", some (ofString "Quest3"))]

/-- The loop over `_DEFAULT_ENV` that takes values of the process. -/
def respectProcess (merged : Env) (process : PyStr → Option PyStr) : Env :=
  defaultEnv.foldl (fun merged entry => assign merged (entry.1, process entry.1)) merged

/-! ### Paths -/

/-- `os.path.join` with a relative path. -/
def join (a b : PyStr) : PyStr := if a = [] ∨ a.getLast? = some 47 then a ++ b else a ++ 47 :: b

/-- `os.path.dirname` -/
def dirname (path : PyStr) : PyStr :=
  let head := path.rdropWhile (· ≠ 47)
  if head.all (· = 47) then head else head.rdropWhile (· = 47)

def openxrRunDir (installDir : PyStr) : PyStr := join installDir (ofString "run")

def inferredVars (installDir : PyStr) : List (PyStr × PyStr) :=
  [(ofString "XR_RUNTIME_JSON",
      join (dirname (openxrRunDir installDir)) (ofString "openxr_cloudxr.json")),
    (ofString "NV_CXR_RUNTIME_DIR", openxrRunDir installDir),
    (ofString "NV_CXR_OUTPUT_DIR", join installDir (ofString "logs")),
    (ofString "XRT_NO_STDIN", ofString "true")]

/-! ### Applying and writing -/

/-- `os.environ[k] = v` does not raise. -/
def settable (k v : PyStr) : Bool := k ≠ [] && !k.contains 61 && !k.contains 0 && !v.contains 0

def setEnviron (environ : Environ) : List (PyStr × PyStr) → Option Environ
  | [] => some environ
  | (k, v) :: rest =>
    if settable k v then setEnviron (Function.update environ k (some v)) rest else none

/-- `env[k] = v` for all of them. -/
def update (env : Env) (entries : List (PyStr × PyStr)) : Env :=
  entries.foldl (fun env entry => env.insert entry.1 entry.2) env

def exportLine (k v : PyStr) : PyStr := ofString "export " ++ (k ++ 61 :: quote v)

def sortedEntries (env : Env) : List (PyStr × PyStr) :=
  env.entries.mergeSort fun a b => decide (a.1 ≤ b.1)

/-- The text of `cloudxr.env`. -/
def exportText (env : Env) : PyStr :=
  (sortedEntries env).flatMap fun entry => exportLine entry.1 entry.2 ++ [10]

structure Resolved where
  env : Env
  environ : Environ
  file : PyStr

def installKeys : List PyStr := [ofString "CXR_INSTALL_DIR", ofString "CXR_HOST_VOLUME_PATH"]

/-- `_resolve_and_apply`; `none` is an exception, also that of a text without an encoding. -/
def resolveAndApply (installDir : PyStr) (environ : Environ) (env : Env) : Option Resolved := do
  let env := update env (installKeys.map fun k => (k, installDir))
  let environ ← setEnviron environ (env.entries.filter fun entry => entry.2 ≠ [])
  let environ ← setEnviron environ (inferredVars installDir)
  let env := update env (inferredVars installDir)
  if ∀ entry ∈ env.entries, entry.1.IsText ∧ entry.2.IsText then
    some ⟨env, environ, exportText env⟩
  else none

/-- What `from_args` is given; `envFile` is the text of the env file. -/
structure EnvInputs where
  installDir : PyStr
  environ : Environ
  launcherDefaults : OrderedDict PyStr (Option PyStr)
  envFile : Option PyStr
  expand : PyStr → PyStr

namespace EnvInputs

variable (i : EnvInputs)

/-- The entries of the env file. -/
def overrides : Env :=
  match i.envFile with
  | some text => loadEnvFile i.expand text
  | none => ∅

/-- `_load_resolve_and_apply` -/
def loadResolveAndApply : Option Resolved :=
  let overrides := i.overrides.filterKeys fun k => k ∉ resolvedOnlyKeys
  let merged := mergeEnv defaultEnv i.launcherDefaults.entries
  let merged := respectProcess merged fun key =>
    if key ∈ resolvedOnlyKeys ∨ key ∈ overrides.keys then none else i.environ key
  let merged := mergeEnv (merged.entries.map fun entry => (entry.1, some entry.2))
    (overrides.entries.map fun entry => (entry.1, some entry.2))
  resolveAndApply i.installDir i.environ merged

/-- The value that a variable is to have: computed, from the env file, from the process, from the
launcher or the default; an empty value counts in the env file only. -/
def precedence (k : PyStr) : Option PyStr :=
  (value? (inferredVars i.installDir) k).or <|
  (if k ∈ installKeys then some i.installDir else none).or <|
  (i.overrides.get? k).or <|
  ((if k ∈ defaultEnv.map Prod.fst ∧ k ∉ resolvedOnlyKeys then i.environ k else none).or <|
    (i.launcherDefaults.get? k).join.or (value? defaultEnv k).join).filter (· ≠ [])

end EnvInputs

/-! ### Reading it back -/

/-- A line of `read_exported_env`. -/
def readLine (result : Env) (raw : PyStr) : Env :=
  let line := strip raw
  let line := if (ofString "export ").isPrefixOf line then line.drop 7 else line
  match partition line with
  | none => result
  | some (name, value) =>
    if strip name = [] then result
    else
      match shlexSplit value with
      | some words => result.insert (strip name) (words.headD [])
      | none => result

/-- `read_exported_env` of a file that can be read. -/
def readExportedEnv (text : PyStr) : Env :=
  (splitlines (universalNewlines text)).foldl readLine ∅

/-! ### The resolved environment -/

section Entries

variable {κ α β : Type}

theorem map_fst_values (f : κ → α → β) (l : List (κ × α)) :
    (l.map fun entry => (entry.1, f entry.1 entry.2)).map Prod.fst = l.map Prod.fst := by
  rw [List.map_map]
  rfl

variable [DecidableEq κ]

theorem value?_cons_self (l : List (κ × α)) (k : κ) (v : α) : value? ((k, v) :: l) k = some v :=
  OrderedDict.lookup_cons_self l k v

theorem value?_cons_ne (l : List (κ × α)) {k k' : κ} (v : α) (h : k ≠ k') :
    value? ((k', v) :: l) k = value? l k := OrderedDict.lookup_cons_ne l v h

theorem value?_eq_none {l : List (κ × α)} {k : κ} (h : k ∉ l.map Prod.fst) : value? l k = none := by
  rw [OrderedDict.mem_map_fst_iff] at h
  exact Option.eq_none_iff_forall_not_mem.mpr fun v hv => h ⟨v, hv⟩

theorem mem_of_value? {l : List (κ × α)} {k : κ} {v : α} (h : value? l k = some v) :
    (k, v) ∈ l := by
  induction l with
  | nil => cases h
  | cons entry l ih =>
    obtain ⟨k', v'⟩ := entry
    by_cases hk : k = k'
    · subst hk
      rw [value?_cons_self] at h
      cases h
      exact List.mem_cons_self
    · rw [value?_cons_ne l v' hk] at h
      exact List.mem_cons_of_mem _ (ih h)

/-- Values that are changed key by key. -/
theorem value?_map (f : κ → α → β) (l : List (κ × α)) (k : κ) :
    value? (l.map fun entry => (entry.1, f entry.1 entry.2)) k = (value? l k).map (f k) := by
  induction l with
  | nil => rfl
  | cons entry l ih =>
    obtain ⟨k', v⟩ := entry
    rw [List.map_cons]
    by_cases hk : k = k'
    · subst hk
      rw [value?_cons_self, value?_cons_self]
      rfl
    · rw [value?_cons_ne _ _ hk, value?_cons_ne _ _ hk, ih]

end Entries

theorem get?_foldl_assign {l : List (PyStr × Option PyStr)} (hnodup : (l.map Prod.fst).Nodup)
    (d : Env) (k : PyStr) :
    (l.foldl assign d).get? k = (value? l k).join.or (d.get? k) := by
  induction l generalizing d with
  | nil => simp [value?]
  | cons entry l ih =>
    obtain ⟨k', v⟩ := entry
    rw [List.map_cons, List.nodup_cons] at hnodup
    rw [List.foldl_cons, ih hnodup.2]
    by_cases hk : k = k'
    · subst hk
      rw [value?_eq_none hnodup.1, value?_cons_self]
      cases v with
      | none => rfl
      | some v => simp [assign, OrderedDict.get?_insert]
    · rw [value?_cons_ne l v hk]
      cases v with
      | none => rfl
      | some v => simp [assign, OrderedDict.get?_insert, hk]

theorem get?_update {l : List (PyStr × PyStr)} (hnodup : (l.map Prod.fst).Nodup) (d : Env)
    (k : PyStr) : (update d l).get? k = (value? l k).or (d.get? k) := by
  have hassign : update d l = (l.map fun entry => (entry.1, some entry.2)).foldl assign d := by
    rw [List.foldl_map]
    rfl
  rw [hassign, get?_foldl_assign (by rwa [map_fst_values fun _ v => some v]),
    value?_map fun _ v => some v]
  cases value? l k <;> rfl

theorem get?_mergeEnv {defaults overrides : List (PyStr × Option PyStr)}
    (hdefaults : (defaults.map Prod.fst).Nodup) (hoverrides : (overrides.map Prod.fst).Nodup)
    (k : PyStr) :
    (mergeEnv defaults overrides).get? k =
      (value? overrides k).join.or ((value? defaults k).join.filter (· ≠ [])) := by
  rw [mergeEnv, get?_foldl_assign hoverrides,
    get?_foldl_assign (by rwa [map_fst_values fun _ v => Option.filter (· ≠ []) v]),
    value?_map fun _ v => Option.filter (· ≠ []) v, OrderedDict.get?_empty, Option.or_none]
  cases value? defaults k <;> rfl

theorem nodup_defaultEnv : (defaultEnv.map Prod.fst).Nodup := by decide

theorem nodup_inferredVars (installDir : PyStr) :
    ((inferredVars installDir).map Prod.fst).Nodup := by
  have hkeys : (inferredVars installDir).map Prod.fst = [ofString "XR_RUNTIME_JSON",
      ofString "NV_CXR_RUNTIME_DIR", ofString "NV_CXR_OUTPUT_DIR", ofString "XRT_NO_STDIN"] := rfl
  rw [hkeys]
  decide

theorem nodup_installKeys : installKeys.Nodup := by decide

theorem value?_installKeys (keys : List PyStr) (installDir k : PyStr) :
    value? (keys.map fun key => (key, installDir)) k =
      if k ∈ keys then some installDir else none := by
  induction keys with
  | nil => rfl
  | cons key keys ih =>
    rw [List.map_cons]
    by_cases hk : k = key
    · subst hk
      rw [value?_cons_self]
      simp
    · rw [value?_cons_ne _ _ hk, ih]
      simp [hk]

theorem value?_some_entries (d : Env) (k : PyStr) :
    (value? (d.entries.map fun entry => (entry.1, some entry.2)) k).join = d.get? k := by
  rw [value?_map fun _ v => some v]
  change ((d.get? k).map some).join = d.get? k
  cases d.get? k <;> rfl

theorem nodup_some_entries (d : Env) :
    ((d.entries.map fun entry => (entry.1, some entry.2)).map Prod.fst).Nodup := by
  rw [map_fst_values fun _ v => some v]
  exact d.nodup

/-- The reserved variables are computed. -/
theorem value?_inferredVars_of_reserved (installDir : PyStr) :
    ∀ k ∈ resolvedOnlyKeys, (value? (inferredVars installDir) k).isSome = true := by
  have hkeys : ∀ k ∈ resolvedOnlyKeys, k ∈ (inferredVars installDir).map Prod.fst := by
    have hlist : (inferredVars installDir).map Prod.fst = [ofString "XR_RUNTIME_JSON",
      ofString "NV_CXR_RUNTIME_DIR", ofString "NV_CXR_OUTPUT_DIR", ofString "XRT_NO_STDIN"] := rfl
    rw [hlist]
    decide
  intro k hk
  rw [Option.isSome_iff_exists]
  exact (OrderedDict.mem_map_fst_iff _ k).mp (hkeys k hk)

/-- What a success of `_resolve_and_apply` has done. -/
theorem resolveAndApply_spec {installDir : PyStr} {environ : Environ} {env : Env} {r : Resolved}
    (h : resolveAndApply installDir environ env = some r) :
    ∃ environ₁,
      setEnviron environ ((update env (installKeys.map fun k => (k, installDir))).entries.filter
        fun entry => entry.2 ≠ []) = some environ₁ ∧
      setEnviron environ₁ (inferredVars installDir) = some r.environ ∧
      r.env = update (update env (installKeys.map fun k => (k, installDir)))
        (inferredVars installDir) ∧
      r.file = exportText r.env := by
  simp only [resolveAndApply] at h
  generalize update env (installKeys.map fun k => (k, installDir)) = installed at h ⊢
  generalize inferredVars installDir = inferred at h ⊢
  obtain ⟨environ₁, hfirst, h⟩ := Option.bind_eq_some_iff.mp h
  obtain ⟨environ₂, hsecond, h⟩ := Option.bind_eq_some_iff.mp h
  split at h
  · obtain rfl := Option.some.inj h
    exact ⟨environ₁, hfirst, hsecond, rfl, rfl⟩
  · cases h

theorem get?_respectProcess (merged : Env) (process : PyStr → Option PyStr) (k : PyStr) :
    (respectProcess merged process).get? k =
      (if k ∈ defaultEnv.map Prod.fst then process k else none).or (merged.get? k) := by
  have hnodup : ((defaultEnv.map fun entry => (entry.1, process entry.1)).map Prod.fst).Nodup := by
    rw [map_fst_values fun k _ => process k]
    exact nodup_defaultEnv
  have hassign := get?_foldl_assign hnodup merged k
  rw [List.foldl_map, value?_map fun k _ => process k] at hassign
  rw [respectProcess, hassign]
  by_cases hk : k ∈ defaultEnv.map Prod.fst
  · obtain ⟨v, hv⟩ := (OrderedDict.mem_map_fst_iff defaultEnv k).mp hk
    have hvalue : value? defaultEnv k = some v := hv
    rw [hvalue, if_pos hk]
    rfl
  · rw [value?_eq_none hk, if_neg hk]
    rfl

theorem or_filter_filter {p : PyStr → Bool} (a b : Option PyStr) :
    (a.or (b.filter p)).filter p = (a.or b).filter p := by
  cases a with
  | some v => rfl
  | none => simp

namespace EnvInputs

variable {i : EnvInputs}

/-- **The resolved environment is that of the precedence.** -/
theorem env_precedence {r : Resolved} (h : i.loadResolveAndApply = some r) (k : PyStr) :
    r.env.get? k = i.precedence k := by
  obtain ⟨environ₁, -, -, henv, -⟩ := resolveAndApply_spec h
  have hinstall : ((installKeys.map fun k => (k, i.installDir)).map Prod.fst).Nodup := by
    rw [List.map_map]
    exact (List.map_id installKeys).symm ▸ nodup_installKeys
  rw [henv, get?_update (nodup_inferredVars _), get?_update hinstall, value?_installKeys,
    precedence]
  cases hinferred : value? (inferredVars i.installDir) k with
  | some v => rfl
  | none =>
    -- A reserved key is always inferred.
    have hfree : k ∉ resolvedOnlyKeys := by
      intro hk
      have hsome := value?_inferredVars_of_reserved i.installDir k hk
      rw [hinferred] at hsome
      cases hsome
    rw [Option.none_or, Option.none_or]
    congr 1
    rw [get?_mergeEnv (nodup_some_entries _) (nodup_some_entries _), value?_some_entries,
      value?_some_entries, get?_respectProcess, get?_mergeEnv nodup_defaultEnv
        i.launcherDefaults.nodup, OrderedDict.get?_filterKeys, if_pos (by simpa using hfree)]
    -- Below that: the file, the process, the launcher's defaults.
    cases hfile : i.overrides.get? k with
    | some v => rfl
    | none =>
      have hnot : k ∉ (i.overrides.filterKeys fun k => k ∉ resolvedOnlyKeys).keys := by
        rw [← OrderedDict.get?_eq_none, OrderedDict.get?_filterKeys, hfile, ite_self]
      rw [Option.none_or, Option.none_or, if_neg (not_or.mpr ⟨hfree, hnot⟩)]
      simp only [hfree, not_false_eq_true, and_true]
      rw [← Option.or_assoc, or_filter_filter, Option.or_assoc]
      rfl

end EnvInputs

/-! ### The process environment -/

theorem setEnviron_spec {l : List (PyStr × PyStr)} (hnodup : (l.map Prod.fst).Nodup)
    {environ environ' : Environ} (h : setEnviron environ l = some environ') :
    (∀ entry ∈ l, settable entry.1 entry.2 = true) ∧
      ∀ k, environ' k = (value? l k).or (environ k) := by
  induction l generalizing environ with
  | nil =>
    obtain rfl := Option.some.inj h
    exact ⟨by simp, fun k => rfl⟩
  | cons entry l ih =>
    obtain ⟨k', v⟩ := entry
    rw [List.map_cons, List.nodup_cons] at hnodup
    simp only [setEnviron] at h
    split at h
    · rename_i hset
      obtain ⟨hrest, hvalues⟩ := ih hnodup.2 h
      refine ⟨List.forall_mem_cons.mpr ⟨hset, hrest⟩, fun k => ?_⟩
      rw [hvalues k]
      by_cases hk : k = k'
      · subst hk
        rw [value?_eq_none hnodup.1, value?_cons_self, Function.update_self]
        rfl
      · rw [value?_cons_ne l v hk, Function.update_of_ne hk]
    · cases h

theorem value?_filter_nonempty {l : List (PyStr × PyStr)} (hnodup : (l.map Prod.fst).Nodup)
    (k : PyStr) :
    value? (l.filter fun entry => entry.2 ≠ []) k = (value? l k).filter (· ≠ []) := by
  induction l with
  | nil => rfl
  | cons entry l ih =>
    obtain ⟨k', v⟩ := entry
    rw [List.map_cons, List.nodup_cons] at hnodup
    rw [List.filter_cons]
    by_cases hk : k = k'
    · subst hk
      rw [value?_cons_self]
      split
      · rename_i hv
        rw [value?_cons_self, Option.filter_some, if_pos hv]
      · rename_i hv
        rw [ih hnodup.2, value?_eq_none hnodup.1, Option.filter_some, if_neg hv]
        rfl
    · rw [value?_cons_ne l v hk, ← ih hnodup.2]
      split
      · rw [value?_cons_ne _ v hk]
      · rfl

theorem join_ne_nil {a b : PyStr} (hb : b ≠ []) : join a b ≠ [] := by
  unfold join
  split
  · exact List.append_ne_nil_of_right_ne_nil a hb
  · simp

theorem inferredVars_spec (installDir : PyStr) : ∀ entry ∈ inferredVars installDir,
    entry.2 ≠ [] ∧ entry.1 ≠ [] ∧ 61 ∉ entry.1 := by
  intro entry hentry
  have hconstants : ∀ k ∈ resolvedOnlyKeys, k ≠ [] ∧ 61 ∉ k := by decide
  simp only [inferredVars, List.mem_cons, List.not_mem_nil, or_false] at hentry
  rcases hentry with rfl | rfl | rfl | rfl
  · exact ⟨join_ne_nil (by decide), hconstants _ (by simp [resolvedOnlyKeys])⟩
  · exact ⟨join_ne_nil (by decide), hconstants _ (by simp [resolvedOnlyKeys])⟩
  · exact ⟨join_ne_nil (by decide), hconstants _ (by simp [resolvedOnlyKeys])⟩
  · exact ⟨by decide, hconstants _ (by simp [resolvedOnlyKeys])⟩

/-! ### Names -/

theorem partition_spec {s name value : PyStr} (h : partition s = some (name, value)) :
    61 ∉ name ∧ (∀ c ∈ name, c ∈ s) ∧ ∀ c ∈ value, c ∈ s := by
  unfold partition at h
  split at h
  · obtain ⟨rfl, rfl⟩ := Prod.mk.inj (Option.some.inj h)
    refine ⟨fun hmem => ?_, fun c hc => (List.takeWhile_sublist _).subset hc,
      fun c hc => (List.dropWhile_sublist _).subset (List.mem_of_mem_tail hc)⟩
    simpa using List.mem_takeWhile_imp hmem
  · cases h

/-- A name in the env file. -/
theorem get?_loadEnvFile {expand : PyStr → PyStr} {text k v : PyStr}
    (h : (loadEnvFile expand text).get? k = some v) : k ≠ [] ∧ 61 ∉ k := by
  -- On the lines: an entry was there before, or comes from the line just read.
  have hlines : ∀ (lines : List PyStr) (d : Env),
      (∀ k v, d.get? k = some v → k ≠ [] ∧ 61 ∉ k) →
      ∀ k v, (lines.foldl (loadLine expand) d).get? k = some v → k ≠ [] ∧ 61 ∉ k := by
    intro lines
    induction lines with
    | nil => exact fun d hd => hd
    | cons raw lines ih =>
      intro d hd
      refine ih _ fun k v hk => ?_
      unfold loadLine at hk
      simp only at hk
      split at hk
      · exact hd k v hk
      split at hk
      · exact hd k v hk
      rename_i key value hpartition
      split at hk
      · exact hd k v hk
      rename_i hne
      rw [OrderedDict.get?_insert] at hk
      split at hk
      · rename_i hkey
        subst hkey
        exact ⟨hne, fun hmem => (partition_spec hpartition).1 (mem_of_mem_strip hmem)⟩
      · exact hd k v hk
  exact hlines _ ∅ (by simp) k v h

/-- What is read back is stripped, and on one line. -/
theorem get?_readExportedEnv {text k v : PyStr} (h : (readExportedEnv text).get? k = some v) :
    strip k = k ∧ k.OneLine ∧ v.OneLine := by
  -- On the lines: an entry was there before, or comes from the line just read.
  have hlines : ∀ (lines : List PyStr) (d : Env), (∀ line ∈ lines, line.OneLine) →
      (∀ k v, d.get? k = some v → strip k = k ∧ k.OneLine ∧ v.OneLine) →
      ∀ k v, (lines.foldl readLine d).get? k = some v → strip k = k ∧ k.OneLine ∧ v.OneLine := by
    intro lines
    induction lines with
    | nil => exact fun d _ hd => hd
    | cons raw lines ih =>
      intro d hone hd
      refine ih _ (fun line hline => hone line (List.mem_cons_of_mem raw hline)) fun k v hk => ?_
      have hraw := hone raw List.mem_cons_self
      unfold readLine at hk
      simp only at hk
      split at hk
      · exact hd k v hk
      rename_i name value hpartition
      split at hk
      · exact hd k v hk
      split at hk
      · rename_i words hwords
        rw [OrderedDict.get?_insert] at hk
        split at hk
        · rename_i hkey
          subst hkey
          obtain rfl := Option.some.inj hk
          -- Stripping a line and its `export` only takes characters away.
          have hline : ∀ c ∈ (if (ofString "export ").isPrefixOf (strip raw) then
              (strip raw).drop 7 else strip raw), isBreak c = false := by
            intro c hc
            split at hc
            · exact hraw c (mem_of_mem_strip (List.mem_of_mem_drop hc))
            · exact hraw c (mem_of_mem_strip hc)
          obtain ⟨_, hname, hvalue⟩ := partition_spec hpartition
          refine ⟨strip_strip name, fun c hc => hline c (hname c (mem_of_mem_strip hc)), ?_⟩
          cases words with
          | nil => simp [OneLine]
          | cons word words =>
            exact shlexSplit_forall (P := fun c => isBreak c = false) rfl
              (fun c hc => hline c (hvalue c hc)) hwords word List.mem_cons_self
        · exact hd k v hk
      · exact hd k v hk
  exact hlines _ ∅ (fun line hline => oneLine_of_mem_splitlines hline) (by simp) k v h

/-! ### The round trip -/

theorem oneLine_quote {v : PyStr} (hv : v.OneLine) : (quote v).OneLine := by
  have hchars : ∀ c ∈ v.flatMap quoteChar, isBreak c = false := by
    intro c hc
    obtain ⟨d, hd, hc⟩ := List.mem_flatMap.mp hc
    unfold quoteChar at hc
    split at hc
    · have hall : ∀ c ∈ [39, 34, 39, 34, 39], isBreak c = false := by decide
      exact hall c hc
    · exact List.mem_singleton.mp hc ▸ hv d hd
  unfold quote
  split
  · decide
  split
  · exact hv
  · intro c hc
    rcases List.mem_cons.mp hc with rfl | hc
    · rfl
    rcases List.mem_append.mp hc with hc | hc
    · exact hchars c hc
    · exact List.mem_singleton.mp hc ▸ rfl

theorem quote_last (v : PyStr) : ∃ s c, quote v = s ++ [c] ∧ isSpace c = false := by
  unfold quote
  split
  · exact ⟨[39], 39, rfl, rfl⟩
  split
  · rename_i hne hsafe
    refine ⟨v.dropLast, v.getLast hne, (List.dropLast_append_getLast hne).symm, ?_⟩
    have hlast := List.all_eq_true.mp hsafe _ (List.getLast_mem hne)
    simp only [isSafe, Bool.or_eq_true, Bool.and_eq_true, decide_eq_true_eq] at hlast
    simp only [isSpace, Bool.or_eq_false_iff, Bool.and_eq_false_iff, decide_eq_false_iff_not]
    omega
  · exact ⟨39 :: v.flatMap quoteChar, 39, rfl, rfl⟩

theorem strip_exportLine (k v : PyStr) : strip (exportLine k v) = exportLine k v := by
  obtain ⟨s, c, hquote, hc⟩ := quote_last v
  have hhead : exportLine k v = 101 :: (exportLine k v).tail := rfl
  have hlast : exportLine k v = (ofString "export " ++ (k ++ 61 :: s)) ++ [c] := by
    rw [exportLine, hquote]
    simp
  refine strip_eq_self (fun d hd => ?_) (fun d hd => ?_)
  · rw [hhead] at hd
    obtain rfl : 101 = d := by simpa using hd
    rfl
  · rw [hlast, List.getLast?_concat] at hd
    obtain rfl : c = d := by simpa using hd
    exact hc

/-- A line that is read back. -/
theorem readLine_exportLine {k : PyStr} (hne : k ≠ []) (heq : 61 ∉ k) (hstrip : strip k = k)
    (v : PyStr) (d : Env) : readLine d (exportLine k v) = d.insert k v := by
  have hexport : (ofString "export ").isPrefixOf (exportLine k v) = true :=
    List.isPrefixOf_iff_prefix.mpr ⟨k ++ 61 :: quote v, rfl⟩
  have hdrop : (exportLine k v).drop 7 = k ++ 61 :: quote v := by
    have hlen : (ofString "export ").length = 7 := by decide
    rw [exportLine, ← hlen, List.drop_left]
  have hplain : ∀ c ∈ k, decide (c ≠ 61) = true := by
    intro c hc
    have hne : c ≠ 61 := fun h => heq (h ▸ hc)
    simpa using hne
  have hpartition : partition (k ++ 61 :: quote v) = some (k, quote v) := by
    rw [partition, if_pos (by simp), List.takeWhile_append_of_pos hplain,
      List.dropWhile_append_of_pos hplain]
    simp
  simp only [readLine, strip_exportLine, hexport, if_true, hdrop, hpartition, hstrip, hne, if_false,
    shlexSplit_quote, List.headD_cons]

theorem oneLine_exportLine {k v : PyStr} (hk : k.OneLine) (hv : v.OneLine) :
    (exportLine k v).OneLine := by
  have hexport : (ofString "export ").OneLine := by decide
  intro c hc
  rcases List.mem_append.mp hc with hc | hc
  · exact hexport c hc
  rcases List.mem_append.mp hc with hc | hc
  · exact hk c hc
  rcases List.mem_cons.mp hc with rfl | hc
  · rfl
  · exact oneLine_quote hv c hc

/-- The file gives its entries back. -/
theorem readExportedEnv_exportText {env : Env}
    (hkeys : ∀ k v, env.get? k = some v → k ≠ [] ∧ 61 ∉ k)
    (hlines : ∀ k v, env.get? k = some v → strip k = k ∧ k.OneLine ∧ v.OneLine) (k : PyStr) :
    (readExportedEnv (exportText env)).get? k = env.get? k := by
  have hperm : (sortedEntries env).Perm env.entries := List.mergeSort_perm _ _
  have hmem : ∀ entry ∈ sortedEntries env, env.get? entry.1 = some entry.2 := fun entry hentry =>
    OrderedDict.get?_of_mem (hperm.mem_iff.mp hentry)
  have hone : ∀ line ∈ (sortedEntries env).map (fun entry => exportLine entry.1 entry.2),
      line.OneLine := by
    intro line hline
    obtain ⟨entry, hentry, rfl⟩ := List.mem_map.mp hline
    obtain ⟨_, hk, hv⟩ := hlines _ _ (hmem entry hentry)
    exact oneLine_exportLine hk hv
  have htext : exportText env = ((sortedEntries env).map fun entry =>
      exportLine entry.1 entry.2).flatMap fun line => line ++ [10] := by
    rw [List.flatMap_map]
    rfl
  -- No carriage return is written, so the text mode changes nothing.
  have hnewlines : universalNewlines (exportText env) = exportText env := by
    refine universalNewlines_eq_self fun hcr => ?_
    rw [htext] at hcr
    obtain ⟨line, hline, hcr⟩ := List.mem_flatMap.mp hcr
    rcases List.mem_append.mp hcr with hcr | hcr
    · exact absurd (hone line hline 13 hcr) (by decide)
    · simp at hcr
  -- Each line gives its pair back.
  have hfold : ∀ (entries : List (PyStr × PyStr)) (d : Env),
      (∀ entry ∈ entries, env.get? entry.1 = some entry.2) →
      (entries.map fun entry => exportLine entry.1 entry.2).foldl readLine d =
        update d entries := by
    intro entries
    induction entries with
    | nil => exact fun d _ => rfl
    | cons entry entries ih =>
      intro d hentries
      have hentry := hentries entry List.mem_cons_self
      obtain ⟨hne, heq⟩ := hkeys _ _ hentry
      rw [List.map_cons, List.foldl_cons,
        readLine_exportLine hne heq (hlines _ _ hentry).1,
        ih _ fun entry hentry => hentries entry (List.mem_cons_of_mem _ hentry)]
      rfl
  have hnodup : ((sortedEntries env).map Prod.fst).Nodup :=
    (hperm.map Prod.fst).nodup_iff.mpr env.nodup
  rw [readExportedEnv, hnewlines, htext, splitlines_lines hone, hfold _ _ hmem,
    get?_update hnodup, OrderedDict.get?_empty, Option.or_none]
  cases hget : env.get? k with
  | some v =>
    exact OrderedDict.lookup_of_mem hnodup (hperm.mem_iff.mpr (OrderedDict.mem_of_get? hget))
  | none =>
    refine value?_eq_none fun hk => ?_
    exact OrderedDict.get?_eq_none.mp hget ((hperm.map Prod.fst).mem_iff.mp hk)

namespace EnvInputs

variable {i : EnvInputs} {r : Resolved}

/-- The applied environment, by the variables before the computed ones. -/
theorem environ_spec (h : i.loadResolveAndApply = some r) : ∃ env₁ : Env,
    (∀ k, r.env.get? k = (value? (inferredVars i.installDir) k).or (env₁.get? k)) ∧
    (∀ k v, env₁.get? k = some v → v ≠ [] → settable k v = true) ∧
    ∀ k, r.environ k = (value? (inferredVars i.installDir) k).or
      (((env₁.get? k).filter (· ≠ [])).or (i.environ k)) := by
  obtain ⟨environ₁, hfirst, hsecond, henv, -⟩ := resolveAndApply_spec h
  generalize update _ (installKeys.map fun k => (k, i.installDir)) = env₁ at hfirst henv
  have hnodup : ((env₁.entries.filter fun entry => entry.2 ≠ []).map Prod.fst).Nodup :=
    env₁.nodup.sublist (List.filter_sublist.map _)
  obtain ⟨hset, hvalues₁⟩ := setEnviron_spec hnodup hfirst
  obtain ⟨-, hvalues⟩ := setEnviron_spec (nodup_inferredVars _) hsecond
  refine ⟨env₁, fun k => ?_, fun k v hk hv => ?_, fun k => ?_⟩
  · rw [henv, get?_update (nodup_inferredVars _)]
  · exact hset (k, v) (List.mem_filter.mpr ⟨OrderedDict.mem_of_get? hk, by simpa using hv⟩)
  · rw [hvalues k, hvalues₁ k, value?_filter_nonempty env₁.nodup]
    rfl

/-- The names of the resolved environment can be written. -/
theorem name_spec (h : i.loadResolveAndApply = some r) {k v : PyStr}
    (hk : r.env.get? k = some v) : k ≠ [] ∧ 61 ∉ k := by
  obtain ⟨env₁, henv, hset, -⟩ := environ_spec h
  cases hinferred : value? (inferredVars i.installDir) k with
  | some w => exact (inferredVars_spec i.installDir _ (mem_of_value? hinferred)).2
  | none =>
    by_cases hv : v = []
    · -- An empty value is the install directory, or comes from the env file.
      rw [env_precedence h, precedence, hinferred, Option.none_or, Option.or_eq_some_iff] at hk
      rcases hk with hinstall | ⟨-, hk⟩
      · have hconstants : ∀ k ∈ installKeys, k ≠ [] ∧ 61 ∉ k := by decide
        split at hinstall
        · exact hconstants k ‹_›
        · cases hinstall
      rw [Option.or_eq_some_iff] at hk
      rcases hk with hfile | ⟨-, hbase⟩
      · unfold overrides at hfile
        split at hfile
        · exact get?_loadEnvFile hfile
        · cases hfile
      · have hne := (Option.filter_eq_some_iff.mp hbase).2
        exact absurd hv (by simpa using hne)
    · rw [henv, hinferred, Option.none_or] at hk
      have hsettable := hset k v hk hv
      simp only [settable, Bool.and_eq_true, decide_eq_true_eq, Bool.not_eq_true',
        List.contains_eq_mem, decide_eq_false_iff_not] at hsettable
      exact ⟨hsettable.1.1.1, hsettable.1.1.2⟩

end EnvInputs

/-- **The exported environment.**  The computed variables have their values.  The file reads back as
the resolved environment exactly if no name or value that the precedence gives has a line boundary
and no name has white space around it, and `os.environ` has the resolved values exactly if none is
empty, unless it was empty before. -/
theorem exported_env (i : EnvInputs) (r : Resolved) (h : i.loadResolveAndApply = some r) :
    (r.env.get? (ofString "XR_RUNTIME_JSON") =
        some (join (dirname (openxrRunDir i.installDir)) (ofString "openxr_cloudxr.json")) ∧
      r.env.get? (ofString "NV_CXR_RUNTIME_DIR") = some (openxrRunDir i.installDir) ∧
      r.env.get? (ofString "NV_CXR_OUTPUT_DIR") = some (join i.installDir (ofString "logs")) ∧
      r.env.get? (ofString "XRT_NO_STDIN") = some (ofString "true")) ∧
    ((∀ k, (readExportedEnv r.file).get? k = r.env.get? k) ↔
      ∀ k v, i.precedence k = some v → strip k = k ∧ k.OneLine ∧ v.OneLine) ∧
    ((∀ k v, r.env.get? k = some v → r.environ k = some v) ↔
      ∀ k v, i.precedence k = some v → v ≠ [] ∨ i.environ k = some []) := by
  obtain ⟨_, -, -, -, hfile⟩ := resolveAndApply_spec h
  obtain ⟨env₁, henv, -, henviron⟩ := EnvInputs.environ_spec h
  refine ⟨⟨?_, ?_, ?_, ?_⟩, ⟨fun hread k v hk => ?_, fun hlines => ?_⟩,
    ⟨fun happlied k v hk => ?_, fun hvalues k v hk => ?_⟩⟩
  · rw [henv]
    rfl
  · rw [henv]
    rfl
  · rw [henv]
    rfl
  · rw [henv]
    rfl
  · -- What was read back was written, and only such pairs are.
    rw [← EnvInputs.env_precedence h, ← hread] at hk
    exact get?_readExportedEnv hk
  · rw [hfile]
    refine readExportedEnv_exportText (fun k v hk => EnvInputs.name_spec h hk) fun k v hk => ?_
    exact hlines k v (EnvInputs.env_precedence h k ▸ hk)
  · rw [← EnvInputs.env_precedence h] at hk
    -- An inferred variable is set even if it is empty, and none of them is.
    have hvalue := happlied k v hk
    rw [henv] at hk
    rw [henviron] at hvalue
    cases hinferred : value? (inferredVars i.installDir) k with
    | some w =>
      rw [hinferred] at hk
      obtain rfl : w = v := by simpa using hk
      exact .inl (inferredVars_spec i.installDir _ (mem_of_value? hinferred)).1
    | none =>
      rw [hinferred, Option.none_or] at hk hvalue
      by_cases hv : v = []
      · subst hv
        rw [hk] at hvalue
        exact .inr (by simpa using hvalue)
      · exact .inl hv
  · have hvalue := hvalues k v (EnvInputs.env_precedence h k ▸ hk)
    rw [henv] at hk
    rw [henviron]
    cases hinferred : value? (inferredVars i.installDir) k with
    | some w =>
      rw [hinferred] at hk
      exact hk
    | none =>
      rw [hinferred, Option.none_or] at hk
      rw [Option.none_or, hk]
      by_cases hv : v = []
      · subst hv
        simpa using hvalue
      · simp [hv]

def profileKey : PyStr := ofString "NV_DEVICE_PROFILE"

/-- A device profile from the process, and an env file. -/
def profileInputs (profile envFile : String) : EnvInputs where
  installDir := ofString "/x"
  environ k := if k = profileKey then some (ofString profile) else none
  launcherDefaults := ∅
  envFile := some (ofString envFile)
  expand := id

/-- Values with blanks come back. -/
theorem quoted_values : ∃ r,
    (profileInputs "Quest 2" "A=two words\n# no\n").loadResolveAndApply = some r ∧
    r.env.get? (ofString "A") = some (ofString "two words") ∧
    ∀ k, (readExportedEnv r.file).get? k = r.env.get? k := by
  have hrun : ((profileInputs "Quest 2" "A=two words\n# no\n").loadResolveAndApply.map fun r =>
      (r.env.get? (ofString "A"), r.env.entries.all fun entry =>
        strip entry.1 = entry.1 ∧ entry.1.OneLine ∧ entry.2.OneLine)) =
      some (some (ofString "two words"), true) := by
    decide
  obtain ⟨r, hload, hr⟩ := Option.map_eq_some_iff.mp hrun
  obtain ⟨hvalue, hall⟩ := Prod.mk.inj hr
  refine ⟨r, hload, hvalue, (exported_env _ r hload).2.1.mpr fun k v hk => ?_⟩
  rw [← EnvInputs.env_precedence hload] at hk
  simpa using List.all_eq_true.mp hall (k, v) (OrderedDict.mem_of_get? hk)

/-- A value with a line end is lost in the file; an empty value of the env file is not applied. -/
theorem profile_lost :
    (∃ r, (profileInputs "a\nb" "").loadResolveAndApply = some r ∧
      r.env.get? profileKey = some (ofString "a\nb") ∧
      (readExportedEnv r.file).get? profileKey ≠ r.env.get? profileKey) ∧
    (∃ r, (profileInputs "Quest2" "NV_DEVICE_PROFILE=\n").loadResolveAndApply = some r ∧
      r.env.get? profileKey = some [] ∧ r.environ profileKey = some (ofString "Quest2")) := by
  constructor
  · have hrun : ((profileInputs "a\nb" "").loadResolveAndApply.map fun r =>
        r.env.get? profileKey) = some (some (ofString "a\nb")) := by
      decide
    obtain ⟨r, hload, hvalue⟩ := Option.map_eq_some_iff.mp hrun
    refine ⟨r, hload, hvalue, fun hread => ?_⟩
    rw [hvalue] at hread
    exact absurd (get?_readExportedEnv hread).2.2 (by decide)
  · have hrun : ((profileInputs "Quest2" "NV_DEVICE_PROFILE=\n").loadResolveAndApply.map fun r =>
        (r.env.get? profileKey, r.environ profileKey)) =
        some (some [], some (ofString "Quest2")) := by
      decide
    obtain ⟨r, hload, hr⟩ := Option.map_eq_some_iff.mp hrun
    exact ⟨r, hload, (Prod.mk.inj hr).1, (Prod.mk.inj hr).2⟩

end EnvConfig
