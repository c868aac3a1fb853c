/-
The salt of the device serials.

Every report of a directory hashes serials with one salt.  A call that finds none writes 32 random
bytes to a temporary file of its own and links it to the salt's name, which fails when another call
was first; then it reads the salt that is there.  Calls of any number of processes are interleaved
file operation by file operation and may crash anywhere.

* `act` — the file operations of `_load_or_create_serial_salt`;
* `Effect` — what one operation leaves alone;
* `Inv` — the salt that is there is complete, and nobody writes it;
* `shared_salt` — every run.
-/
import Mathlib

namespace SerialSalt

variable {Token : Type} [DecidableEq Token]

/-! ### The directory -/

abbrev Bytes := List UInt8

/-- The names that calls use: `.serial-salt`, and a temporary name for each token. -/
inductive Name (Token : Type)
  | salt
  | temp (token : Token)
  deriving DecidableEq

/-- Names refer to files; a file may have several names. -/
structure Disk (Token : Type) where
  dir : Name Token → Option ℕ
  data : ℕ → Bytes
  /-- No file from here on is in use. -/
  next : ℕ

/-- What `os.open` with `O_CREAT | O_EXCL` does to a free name. -/
def Disk.create (d : Disk Token) (name : Name Token) : Disk Token :=
  ⟨Function.update d.dir name (some d.next), Function.update d.data d.next [], d.next + 1⟩

def Disk.append (d : Disk Token) (file : ℕ) (bytes : Bytes) : Disk Token :=
  { d with data := Function.update d.data file (d.data file ++ bytes) }

def Disk.link (d : Disk Token) (name : Name Token) (file : ℕ) : Disk Token :=
  { d with dir := Function.update d.dir name (some file) }

def Disk.unlink (d : Disk Token) (name : Name Token) : Disk Token :=
  { d with dir := Function.update d.dir name none }

section Disk

variable (d : Disk Token) {name name' : Name Token} {file file' : ℕ} {bytes : Bytes}

theorem Disk.create_dir_self : (d.create name).dir name = some d.next := Function.update_self ..

theorem Disk.create_dir_of_ne (h : name' ≠ name) : (d.create name).dir name' = d.dir name' :=
  Function.update_of_ne h ..

theorem Disk.create_data_self : (d.create name).data d.next = [] := Function.update_self ..

theorem Disk.create_data_of_lt (h : file < d.next) : (d.create name).data file = d.data file :=
  Function.update_of_ne h.ne ..

omit [DecidableEq Token] in
theorem Disk.append_data_self : (d.append file bytes).data file = d.data file ++ bytes :=
  Function.update_self ..

omit [DecidableEq Token] in
theorem Disk.append_data_of_ne (h : file' ≠ file) :
    (d.append file bytes).data file' = d.data file' := Function.update_of_ne h ..

theorem Disk.link_dir_self : (d.link name file).dir name = some file := Function.update_self ..

theorem Disk.link_dir_of_ne (h : name' ≠ name) : (d.link name file).dir name' = d.dir name' :=
  Function.update_of_ne h ..

theorem Disk.unlink_dir_self : (d.unlink name).dir name = none := Function.update_self ..

theorem Disk.unlink_dir_of_ne (h : name' ≠ name) : (d.unlink name).dir name' = d.dir name' :=
  Function.update_of_ne h ..

omit [DecidableEq Token] in
theorem salt_ne_temp (token : Token) : (Name.salt : Name Token) ≠ .temp token := nofun

omit [DecidableEq Token] in
theorem temp_ne_salt (token : Token) : (Name.temp token : Name Token) ≠ .salt := nofun

end Disk

/-! ### A call -/

/-- Where a call stands. -/
inductive Place (Token : Type)
  /-- before the open of the salt; `again` after the attempt to publish one -/
  | opening (again : Bool)
  | reading (file : ℕ) (got : Bytes)
  /-- no salt was there -/
  | creating
  | writing (token : Token) (file : ℕ) (rest : Bytes)
  | linking (token : Token) (file : ℕ)
  /-- the `finally` clause; `published` when the body ended without an error -/
  | removing (token : Token) (published : Bool)
  | returned (salt : Bytes)
  | failed
  | crashed

/-- What the surroundings decide at an operation. -/
inductive Choice (Token : Type)
  /-- it succeeds, a read or write with at most `n + 1` bytes -/
  | go (n : ℕ)
  /-- the names and bytes drawn -/
  | draw (token : Token) (salt : Bytes)
  /-- it raises an `OSError` other than the ones the code looks for -/
  | raises
  | crash

/-- The end of a read of up to 33 bytes. -/
def checkSalt (got : Bytes) : Place Token := if got.length = 32 then .returned got else .failed

/-- One file operation of a call. -/
def act (d : Disk Token) : Place Token → Choice Token → Option (Disk Token × Place Token)
  | .returned _, _ => none
  | .failed, _ => none
  | .crashed, _ => none
  | _, .crash => some (d, .crashed)
  | .opening again, .go _ =>
    match d.dir .salt with
    | some file => some (d, .reading file [])
    | none => some (d, if again then .failed else .creating)
  | .reading file got, .go n =>
    match ((d.data file).drop got.length).take (min (n + 1) (33 - got.length)) with
    | [] => some (d, checkSalt got)
    | chunk => some (d, .reading file (got ++ chunk))
  | .creating, .draw token salt =>
    match d.dir (.temp token) with
    | some _ => some (d, .failed)
    | none =>
      if salt.length = 32 then some (d.create (.temp token), .writing token d.next salt) else none
  | .writing token file [], .go _ => some (d, .linking token file)
  | .writing token file (b :: rest), .go n =>
    some (d.append file ((b :: rest).take (n + 1)), .writing token file ((b :: rest).drop (n + 1)))
  | .linking token _, .go _ =>
    match d.dir .salt, d.dir (.temp token) with
    | some _, _ => some (d, .removing token true)
    | none, some file => some (d.link .salt file, .removing token true)
    | none, none => some (d, .removing token false)
  | .removing token published, .go _ =>
    some (d.unlink (.temp token), if published then .opening true else .failed)
  | .opening _, .raises => some (d, .failed)
  | .reading _ _, .raises => some (d, .failed)
  | .creating, .raises => some (d, .failed)
  | .writing token _ _, .raises => some (d, .removing token false)
  | .linking token _, .raises => some (d, .removing token false)
  | .removing _ _, .raises => some (d, .failed)
  | _, _ => none

/-! ### All calls -/

/-- The directory and every call on it. -/
structure State (Token : Type) where
  disk : Disk Token
  calls : ℕ → Place Token

/-- One call makes one operation. -/
def Step (s s' : State Token) : Prop :=
  ∃ p choice d b, act s.disk (s.calls p) choice = some (d, b) ∧
    s' = ⟨d, Function.update s.calls p b⟩

/-- A schedule of operations, each of one call. -/
def exec (s : State Token) : List (ℕ × Choice Token) → Option (State Token)
  | [] => some s
  | (p, choice) :: schedule =>
    match act s.disk (s.calls p) choice with
    | some (d, b) => exec ⟨d, Function.update s.calls p b⟩ schedule
    | none => none

/-- Before any call: no salt, or the complete one of an earlier run; temporary files of crashed
calls may be left. -/
structure Init (s : State Token) : Prop where
  below : ∀ name file, s.disk.dir name = some file → file < s.disk.next
  complete : ∀ file, s.disk.dir .salt = some file → (s.disk.data file).length = 32
  calls : ∀ p, s.calls p = .opening false

/-! ### What an operation leaves alone -/

omit [DecidableEq Token] in
/-- One place is replaced: what distinct calls have stays distinct. -/
theorem update_injOn {α : Type} {f : Place Token → Option α} {calls : ℕ → Place Token} {p : ℕ}
    {b : Place Token} (h : ∀ p q x, f (calls p) = some x → f (calls q) = some x → p = q)
    (hb : ∀ q x, q ≠ p → f (calls q) = some x → f b ≠ some x) (q q' : ℕ) (x : α)
    (hq : f (Function.update calls p b q) = some x)
    (hq' : f (Function.update calls p b q') = some x) : q = q' := by
  by_cases hqp : q = p <;> by_cases hqp' : q' = p
  · rw [hqp, hqp']
  · rw [hqp, Function.update_self] at hq
    rw [Function.update_of_ne hqp'] at hq'
    exact absurd hq (hb q' x hqp' hq')
  · rw [hqp', Function.update_self] at hq'
    rw [Function.update_of_ne hqp] at hq
    exact absurd hq' (hb q x hqp hq)
  · rw [Function.update_of_ne hqp] at hq
    rw [Function.update_of_ne hqp'] at hq'
    exact h q q' x hq hq'

/-- The temporary name that a call holds. -/
def Place.token : Place Token → Option Token
  | .writing token _ _ => some token
  | .linking token _ => some token
  | .removing token _ => some token
  | _ => none

/-- The file that a call has made. -/
def Place.file : Place Token → Option ℕ
  | .writing _ file _ => some file
  | .linking _ file => some file
  | _ => none

/-- What a call may rely on. -/
def Good (d : Disk Token) : Place Token → Prop
  | .reading file got => d.dir .salt = some file ∧ got <+: d.data file
  | .writing token file rest =>
    d.dir (.temp token) = some file ∧ (d.data file).length + rest.length = 32 ∧
      d.dir .salt ≠ some file
  | .linking token file => d.dir (.temp token) = some file ∧ (d.data file).length = 32
  | .removing token _ => ∃ file, d.dir (.temp token) = some file
  | .returned salt => ∃ file, d.dir .salt = some file ∧ d.data file = salt
  | _ => True

/-- Files in use are below `next`, and the salt is complete. -/
structure Sound (d : Disk Token) : Prop where
  below : ∀ name file, d.dir name = some file → file < d.next
  complete : ∀ file, d.dir .salt = some file → (d.data file).length = 32

/-- One operation takes a call from `a` to `b` and the disk from `d` to `d'`. -/
structure Effect (d : Disk Token) (a : Place Token) (d' : Disk Token) (b : Place Token) : Prop where
  sound : Sound d'
  good : Good d' b
  /-- the salt that is there stays as it is -/
  salt : ∀ file, d.dir .salt = some file → d'.dir .salt = some file ∧ d'.data file = d.data file
  /-- names that others hold stay -/
  names : ∀ token, a.token ≠ some token → d.dir (.temp token) ≠ none →
    d'.dir (.temp token) = d.dir (.temp token)
  /-- files that others made stay, and do not become the salt -/
  files : ∀ file < d.next, a.file ≠ some file →
    d'.data file = d.data file ∧ (d'.dir .salt = some file → d.dir .salt = some file)
  token : ∀ token, b.token = some token → a.token = some token ∨ d.dir (.temp token) = none
  file : ∀ file, b.file = some file → a.file = some file ∨ file = d.next

section Act

variable {d d' : Disk Token} {a b : Place Token}

omit [DecidableEq Token] in
/-- An operation that does not touch the disk. -/
theorem Effect.still (hd : Sound d) (hb : Good d b) (htoken : b.token = none ∨ b.token = a.token)
    (hfile : b.file = none ∨ b.file = a.file) : Effect d a d b where
  sound := hd
  good := hb
  salt _ h := ⟨h, rfl⟩
  names _ _ _ := rfl
  files _ _ _ := ⟨rfl, id⟩
  token token h := by
    rcases htoken with hnone | hsame
    · rw [hnone] at h
      cases h
    · exact .inl (hsame ▸ h)
  file file h := by
    rcases hfile with hnone | hsame
    · rw [hnone] at h
      cases h
    · exact .inl (hsame ▸ h)

/-- A new file under a free name. -/
theorem Effect.create (hd : Sound d) {token : Token} (hfree : d.dir (.temp token) = none)
    {salt : Bytes} (hsalt : salt.length = 32) :
    Effect d .creating (d.create (.temp token)) (.writing token d.next salt) := by
  have hdir : (d.create (.temp token)).dir .salt = d.dir .salt :=
    d.create_dir_of_ne (salt_ne_temp token)
  refine ⟨⟨?_, ?_⟩, ⟨d.create_dir_self, ?_, ?_⟩, ?_, ?_, ?_, ?_, ?_⟩
  · intro name file h
    -- The new file gets a number above all others.
    by_cases hname : name = .temp token
    · rw [hname, d.create_dir_self] at h
      cases h
      exact Nat.lt_succ_self _
    · rw [d.create_dir_of_ne hname] at h
      exact Nat.lt_succ_of_lt (hd.below name file h)
  · intro file h
    rw [hdir] at h
    rw [d.create_data_of_lt (hd.below _ _ h)]
    exact hd.complete file h
  · rw [d.create_data_self, List.length_nil, hsalt]
  · rw [hdir]
    intro h
    exact absurd (hd.below _ _ h) (lt_irrefl _)
  · intro file h
    exact ⟨hdir.trans h, d.create_data_of_lt (hd.below _ _ h)⟩
  · -- No other temporary file had this name.
    intro other _ hother
    refine d.create_dir_of_ne fun heq => ?_
    rw [heq] at hother
    exact hother hfree
  · intro file hlt _
    exact ⟨d.create_data_of_lt hlt, fun h => hdir ▸ h⟩
  · intro other h
    cases h
    exact .inr hfree
  · intro file h
    cases h
    exact .inr rfl

omit [DecidableEq Token] in
/-- A call writes to its own file. -/
theorem Effect.append (hd : Sound d) {token : Token} {file : ℕ} {rest bytes rest' : Bytes}
    (hgood : Good d (.writing token file rest)) (hrest : rest = bytes ++ rest') :
    Effect d (.writing token file rest) (d.append file bytes) (.writing token file rest') := by
  obtain ⟨hname, hlen, hsalt⟩ := hgood
  have hnotSalt : ∀ other, d.dir .salt = some other → other ≠ file := by
    rintro other h rfl
    exact hsalt h
  refine ⟨⟨hd.below, ?_⟩, ⟨hname, ?_, hsalt⟩, ?_, fun _ _ _ => rfl, ?_, ?_, ?_⟩
  · intro other h
    rw [d.append_data_of_ne (hnotSalt other h)]
    exact hd.complete other h
  · rw [d.append_data_self, ← hlen, hrest, List.length_append, List.length_append]
    omega
  · intro other h
    exact ⟨h, d.append_data_of_ne (hnotSalt other h)⟩
  · intro other _ hne
    exact ⟨d.append_data_of_ne fun heq => hne (by rw [heq]; rfl), id⟩
  · exact fun _ h => .inl h
  · exact fun _ h => .inl h

/-- The first link publishes a complete salt. -/
theorem Effect.link (hd : Sound d) {token : Token} {file : ℕ}
    (hgood : Good d (.linking token file)) (hfree : d.dir .salt = none) :
    Effect d (.linking token file) (d.link .salt file) (.removing token true) := by
  obtain ⟨hname, hlen⟩ := hgood
  have htemp : ∀ other, (d.link .salt file).dir (.temp other) = d.dir (.temp other) :=
    fun other => d.link_dir_of_ne (temp_ne_salt other)
  refine ⟨⟨?_, ?_⟩, ⟨file, (htemp token).trans hname⟩, ?_, fun other _ _ => htemp other, ?_,
    fun _ h => .inl h, fun _ h => ?_⟩
  · intro name other h
    -- The salt now names the file of the token, which is complete.
    cases name with
    | salt =>
      rw [d.link_dir_self] at h
      cases h
      exact hd.below _ _ hname
    | temp other' =>
      rw [htemp] at h
      exact hd.below _ _ h
  · intro other h
    rw [d.link_dir_self] at h
    cases h
    exact hlen
  · intro other h
    rw [hfree] at h
    cases h
  · intro other _ hne
    refine ⟨rfl, fun h => ?_⟩
    rw [d.link_dir_self] at h
    exact absurd h hne
  · cases h

/-- A call removes its own temporary name. -/
theorem Effect.unlink (hd : Sound d) {token : Token} {published : Bool}
    (hb : Good (d.unlink (.temp token)) b) (htoken : b.token = none) (hfile : b.file = none) :
    Effect d (.removing token published) (d.unlink (.temp token)) b := by
  have hsalt : (d.unlink (.temp token)).dir .salt = d.dir .salt :=
    d.unlink_dir_of_ne (salt_ne_temp token)
  refine ⟨⟨?_, ?_⟩, hb, ?_, ?_, ?_, ?_, ?_⟩
  · intro name file h
    by_cases hname : name = .temp token
    · rw [hname, d.unlink_dir_self] at h
      cases h
    · rw [d.unlink_dir_of_ne hname] at h
      exact hd.below name file h
  · intro file h
    exact hd.complete file (hsalt ▸ h)
  · intro file h
    exact ⟨hsalt.trans h, rfl⟩
  · -- The other temporary names stay.
    intro other hne _
    refine d.unlink_dir_of_ne fun heq => ?_
    cases heq
    exact hne rfl
  · intro file _ _
    exact ⟨rfl, fun h => hsalt ▸ h⟩
  · intro other h
    rw [htoken] at h
    cases h
  · intro file h
    rw [hfile] at h
    cases h

omit [DecidableEq Token] in
/-- The end of a read gives the whole salt or nothing. -/
theorem effect_check (hd : Sound d) {file : ℕ} {got : Bytes} (hgood : Good d (.reading file got))
    (hend : got.length = 33 ∨ got = d.data file) :
    Effect d (.reading file got) d (checkSalt got) := by
  obtain ⟨hsalt, hprefix⟩ := hgood
  have hlen := hd.complete file hsalt
  have heq : got = d.data file := by
    rcases hend with hlong | heq
    · have := hprefix.length_le
      omega
    · exact heq
  rw [checkSalt, if_pos (heq ▸ hlen)]
  exact Effect.still hd ⟨file, hsalt, heq.symm⟩ (.inl rfl) (.inl rfl)

omit [DecidableEq Token] in
/-- The temporary name that a call holds is there. -/
theorem Good.named {token : Token} (h : Good d a) (htoken : a.token = some token) :
    ∃ file, d.dir (.temp token) = some file := by
  cases a with
  | writing token' file rest =>
    cases htoken
    exact ⟨file, h.1⟩
  | linking token' file =>
    cases htoken
    exact ⟨file, h.1⟩
  | removing token' published =>
    cases htoken
    exact h
  | opening again => cases htoken
  | reading file got => cases htoken
  | creating => cases htoken
  | returned salt => cases htoken
  | failed => cases htoken
  | crashed => cases htoken

theorem act_crash (h : act d a .crash = some (d', b)) : d' = d ∧ b = .crashed := by
  cases a <;> simp_all [act]

/-- An error ends the call, by way of the `finally` clause once the temporary file is there. -/
theorem act_raises (h : act d a .raises = some (d', b)) :
    d' = d ∧ (b = .failed ∨ ∃ token, a.token = some token ∧ b = .removing token false) := by
  cases a with
  | writing token file rest => cases rest <;> simp_all [act, Place.token]
  | linking token file => simp_all [act, Place.token]
  | removing token published => simp_all [act]
  | opening again => simp_all [act]
  | reading file got => simp_all [act]
  | creating => simp_all [act]
  | returned salt => simp [act] at h
  | failed => simp [act] at h
  | crashed => simp [act] at h

/-- Only a call without a salt draws. -/
theorem act_draw {token : Token} {salt : Bytes} (h : act d a (.draw token salt) = some (d', b)) :
    a = .creating ∧ (d' = d ∧ b = .failed ∨ d.dir (.temp token) = none ∧ salt.length = 32 ∧
      d' = d.create (.temp token) ∧ b = .writing token d.next salt) := by
  cases a with
  | creating =>
    refine ⟨rfl, ?_⟩
    rw [act] at h
    split at h
    · cases h
      exact .inl ⟨rfl, rfl⟩
    · rename_i hfree
      split at h
      · rename_i hlen
        cases h
        exact .inr ⟨hfree, hlen, rfl, rfl⟩
      · cases h
  | writing token file rest => cases rest <;> simp [act] at h
  | linking token file => simp [act] at h
  | removing token published => simp [act] at h
  | opening again => simp [act] at h
  | reading file got => simp [act] at h
  | returned salt => simp [act] at h
  | failed => simp [act] at h
  | crashed => simp [act] at h

/-- An operation that succeeds. -/
theorem act_go_effect (hd : Sound d) (ha : Good d a) {n : ℕ}
    (h : act d a (.go n) = some (d', b)) : Effect d a d' b := by
  cases a with
  | returned salt => simp [act] at h
  | failed => simp [act] at h
  | crashed => simp [act] at h
  | creating => simp [act] at h
  | opening again =>
    rw [act] at h
    split at h
    · rename_i file hfile
      cases h
      exact Effect.still hd ⟨hfile, List.nil_prefix⟩ (.inl rfl) (.inl rfl)
    · cases h
      cases again <;> exact Effect.still hd trivial (.inl rfl) (.inl rfl)
  | reading file got =>
    obtain ⟨hsalt, rest, hrest⟩ := ha
    have hdrop : (d.data file).drop got.length = rest := by rw [← hrest, List.drop_left]
    rw [act, hdrop] at h
    split at h
    · rename_i hchunk
      cases h
      refine effect_check hd ⟨hsalt, rest, hrest⟩ ?_
      -- The file is at its end, or 33 bytes are there.
      rcases List.take_eq_nil_iff.mp hchunk with hzero | hnil
      · left
        have hlen := hd.complete file hsalt
        rw [← hrest, List.length_append] at hlen
        omega
      · right
        rw [← hrest, hnil, List.append_nil]
    · cases h
      refine Effect.still hd ⟨hsalt, ?_⟩ (.inl rfl) (.inl rfl)
      rw [← hrest]
      exact (List.prefix_append_right_inj got).mpr (List.take_prefix _ _)
  | writing token file rest =>
    obtain ⟨hname, hlen, hsalt⟩ := ha
    cases rest with
    | nil =>
      cases h
      exact Effect.still hd ⟨hname, by simpa using hlen⟩ (.inr rfl) (.inr rfl)
    | cons c rest =>
      cases h
      exact Effect.append hd ⟨hname, hlen, hsalt⟩ (List.take_append_drop _ _).symm
  | linking token file =>
    obtain ⟨hname, hlen⟩ := ha
    rw [act, hname] at h
    cases hsalt : d.dir .salt with
    | some file' =>
      rw [hsalt] at h
      cases h
      exact Effect.still hd ⟨file, hname⟩ (.inr rfl) (.inl rfl)
    | none =>
      rw [hsalt] at h
      cases h
      exact Effect.link hd ⟨hname, hlen⟩ hsalt
  | removing token published =>
    cases h
    cases published <;> exact Effect.unlink hd trivial rfl rfl

/-- **One operation of a call.** -/
theorem act_effect (hd : Sound d) (ha : Good d a) {choice : Choice Token}
    (h : act d a choice = some (d', b)) : Effect d a d' b := by
  cases choice with
  | go n => exact act_go_effect hd ha h
  | draw token salt =>
    obtain ⟨rfl, ⟨rfl, rfl⟩ | ⟨hfree, hlen, rfl, rfl⟩⟩ := act_draw h
    · exact Effect.still hd trivial (.inl rfl) (.inl rfl)
    · exact Effect.create hd hfree hlen
  | raises =>
    obtain ⟨rfl, rfl | ⟨token, htoken, rfl⟩⟩ := act_raises h
    · exact Effect.still hd trivial (.inl rfl) (.inl rfl)
    · exact Effect.still hd (ha.named htoken) (.inr htoken.symm) (.inl rfl)
  | crash =>
    obtain ⟨rfl, rfl⟩ := act_crash h
    exact Effect.still hd trivial (.inl rfl) (.inl rfl)

omit [DecidableEq Token] in
/-- What another call relies on stays. -/
theorem Effect.others (h : Effect d a d' b) (hd : Sound d) {c : Place Token} (hc : Good d c)
    (htoken : ∀ token, c.token = some token → a.token ≠ some token)
    (hfile : ∀ file, c.file = some file → a.file ≠ some file) : Good d' c := by
  -- The names of another process are none of this step's.
  have hname : ∀ {token file}, c.token = some token → d.dir (.temp token) = some file →
      d'.dir (.temp token) = some file := by
    intro token file hc hdir
    rw [h.names token (htoken token hc) (by rw [hdir]; simp), hdir]
  cases c with
  | reading file got =>
    obtain ⟨hsalt, hdata⟩ := h.salt file hc.1
    exact ⟨hsalt, hdata ▸ hc.2⟩
  | writing token file rest =>
    obtain ⟨hdir, hlen, hsalt⟩ := hc
    obtain ⟨hdata, hkeep⟩ := h.files file (hd.below _ _ hdir) (hfile file rfl)
    exact ⟨hname rfl hdir, hdata ▸ hlen, fun hnew => hsalt (hkeep hnew)⟩
  | linking token file =>
    obtain ⟨hdir, hlen⟩ := hc
    obtain ⟨hdata, -⟩ := h.files file (hd.below _ _ hdir) (hfile file rfl)
    exact ⟨hname rfl hdir, hdata ▸ hlen⟩
  | removing token published =>
    obtain ⟨file, hdir⟩ := hc
    exact ⟨file, hname rfl hdir⟩
  | returned salt =>
    obtain ⟨file, hsalt, hdata⟩ := hc
    obtain ⟨hsalt', hdata'⟩ := h.salt file hsalt
    exact ⟨file, hsalt', hdata'.trans hdata⟩
  | opening again => trivial
  | creating => trivial
  | failed => trivial
  | crashed => trivial

end Act

/-! ### Every run -/

/-- **The salt that is there is complete, and nobody writes it.** -/
structure Inv (s : State Token) : Prop where
  sound : Sound s.disk
  good : ∀ p, Good s.disk (s.calls p)
  tokens : ∀ p q token, (s.calls p).token = some token → (s.calls q).token = some token → p = q
  files : ∀ p q file, (s.calls p).file = some file → (s.calls q).file = some file → p = q

section Run

variable {s s' : State Token}

omit [DecidableEq Token] in
theorem Init.inv (h : Init s) : Inv s where
  sound := ⟨h.below, h.complete⟩
  good p := by
    rw [h.calls p]
    trivial
  tokens p q token hp := by
    rw [h.calls p] at hp
    cases hp
  files p q file hp := by
    rw [h.calls p] at hp
    cases hp

omit [DecidableEq Token] in
/-- The file that a call has made is in use. -/
theorem Inv.file_lt (h : Inv s) {q : ℕ} {file : ℕ} (hq : (s.calls q).file = some file) :
    file < s.disk.next := by
  have hgood := h.good q
  cases hplace : s.calls q with
  | writing token file' rest =>
    rw [hplace] at hgood hq
    cases hq
    exact h.sound.below _ _ hgood.1
  | linking token file' =>
    rw [hplace] at hgood hq
    cases hq
    exact h.sound.below _ _ hgood.1
  | _ =>
    rw [hplace] at hq
    cases hq

/-- What a step does to the salt and to the invariant. -/
theorem Inv.step (h : Inv s) (hstep : Step s s') :
    Inv s' ∧ (∀ file, s.disk.dir .salt = some file →
      s'.disk.dir .salt = some file ∧ s'.disk.data file = s.disk.data file) := by
  obtain ⟨p, choice, d, b, hact, rfl⟩ := hstep
  have heffect := act_effect h.sound (h.good p) hact
  -- A name or file that `p` has now was its own, or nobody else's.
  have htoken : ∀ q token, q ≠ p → (s.calls q).token = some token → b.token ≠ some token := by
    intro q token hq hcall hb
    rcases heffect.token token hb with hold | hfree
    · exact hq (h.tokens q p token hcall hold)
    · obtain ⟨file, hfile⟩ := (h.good q).named hcall
      rw [hfree] at hfile
      cases hfile
  have hfile : ∀ q file, q ≠ p → (s.calls q).file = some file → b.file ≠ some file := by
    intro q file hq hcall hb
    rcases heffect.file file hb with hold | hnew
    · exact hq (h.files q p file hcall hold)
    · exact absurd (h.file_lt hcall) (by rw [hnew]; exact lt_irrefl _)
  refine ⟨⟨heffect.sound, ?_, ?_, ?_⟩, heffect.salt⟩
  · intro q
    by_cases hq : q = p
    · subst hq
      simpa using heffect.good
    · simp only [Function.update_of_ne hq]
      refine heffect.others h.sound (h.good q) ?_ ?_
      · exact fun token hcall hold => hq (h.tokens q p token hcall hold)
      · exact fun file hcall hold => hq (h.files q p file hcall hold)
  · exact update_injOn h.tokens htoken
  · exact update_injOn h.files hfile

/-- A call that has returned stays so. -/
theorem returned_step (hstep : Step s s') {p : ℕ} {salt : Bytes}
    (hp : s.calls p = .returned salt) : s'.calls p = .returned salt := by
  obtain ⟨q, choice, d, b, hact, rfl⟩ := hstep
  have hne : p ≠ q := by
    rintro rfl
    rw [hp] at hact
    simp [act] at hact
  simp only [Function.update_of_ne hne, hp]

theorem Inv.run (h : Inv s) (hrun : Relation.ReflTransGen Step s s') :
    Inv s' ∧ (∀ file, s.disk.dir .salt = some file →
      s'.disk.dir .salt = some file ∧ s'.disk.data file = s.disk.data file) := by
  induction hrun with
  | refl => exact ⟨h, fun _ hfile => ⟨hfile, rfl⟩⟩
  | tail _ hstep ih =>
    obtain ⟨hinv, hkeep⟩ := ih
    obtain ⟨hinv', hkeep'⟩ := hinv.step hstep
    refine ⟨hinv', fun file hfile => ?_⟩
    obtain ⟨hdir, hdata⟩ := hkeep file hfile
    obtain ⟨hdir', hdata'⟩ := hkeep' file hdir
    exact ⟨hdir', hdata'.trans hdata⟩

theorem returned_run (hrun : Relation.ReflTransGen Step s s') {p : ℕ} {salt : Bytes}
    (hp : s.calls p = .returned salt) : s'.calls p = .returned salt := by
  induction hrun with
  | refl => exact hp
  | tail _ hstep ih => exact returned_step hstep ih

theorem exec_run {schedule : List (ℕ × Choice Token)} (h : exec s schedule = some s') :
    Relation.ReflTransGen Step s s' := by
  induction schedule generalizing s with
  | nil =>
    cases h
    exact .refl
  | cons op schedule ih =>
    obtain ⟨p, choice⟩ := op
    rw [exec] at h
    split at h
    · rename_i d b hact
      exact .head ⟨p, choice, d, b, hact, rfl⟩ (ih h)
    · cases h

end Run

/-- **All creators share one salt.** In every interleaving of the file operations of any number of
calls, any of them crashing or failing anywhere: all calls that have returned gave the same 32
bytes; whatever happens later, a returned salt is what the salt's file holds and what every other
call that returns gives; and a salt that is there is complete. -/
theorem shared_salt {s₀ s s' : State Token} (h₀ : Init s₀)
    (hrun : Relation.ReflTransGen Step s₀ s) (hlater : Relation.ReflTransGen Step s s') :
    (∀ file, s.disk.dir .salt = some file → (s.disk.data file).length = 32) ∧
    ∀ p salt, s.calls p = .returned salt →
      salt.length = 32 ∧
      (∃ file, s'.disk.dir .salt = some file ∧ s'.disk.data file = salt) ∧
      ∀ q salt', s'.calls q = .returned salt' → salt' = salt := by
  have hinv := (h₀.inv.run hrun).1
  obtain ⟨hinv', -⟩ := hinv.run hlater
  -- Whoever has returned holds what the salt's file holds.
  have hholds : ∀ p salt, s'.calls p = .returned salt →
      ∃ file, s'.disk.dir .salt = some file ∧ s'.disk.data file = salt := by
    intro p salt hp
    have hgood := hinv'.good p
    rw [hp] at hgood
    exact hgood
  refine ⟨hinv.sound.complete, fun p salt hp => ?_⟩
  obtain ⟨file, hfile, hdata⟩ := hholds p salt (returned_run hlater hp)
  refine ⟨?_, ⟨file, hfile, hdata⟩, fun q salt' hq => ?_⟩
  · rw [← hdata]
    exact hinv'.sound.complete file hfile
  · obtain ⟨file', hfile', hdata'⟩ := hholds q salt' hq
    rw [hfile] at hfile'
    cases hfile'
    rw [← hdata, ← hdata']

/-- An empty directory. -/
def emptyState : State ℕ := ⟨⟨fun _ => none, fun _ => [], 0⟩, fun _ => .opening false⟩

/-- Two calls that both find no salt; the second one's link fails, and a third one crashes while it
writes. -/
def race : List (ℕ × Choice ℕ) :=
  [(0, .go 0), (1, .go 0), (2, .go 0), (0, .draw 7 (List.replicate 32 1)),
    (1, .draw 8 (List.replicate 32 2)), (2, .draw 9 (List.replicate 32 3)), (2, .go 3), (2, .crash),
    (0, .go 20), (1, .go 40), (0, .go 40), (0, .go 0), (1, .go 0), (0, .go 0), (1, .go 0),
    (0, .go 0), (1, .go 0), (1, .go 0), (1, .go 40), (1, .go 0), (0, .go 0), (0, .go 40),
    (0, .go 0)]

/-- Both give the salt of the first. -/
theorem race_shares : ∃ s salt, exec emptyState race = some s ∧
    s.calls 0 = .returned (List.replicate 32 1) ∧ s.calls 1 = .returned salt ∧
    salt = List.replicate 32 1 := by
  have hinit : Init emptyState := ⟨fun _ _ h => (by cases h), fun _ h => (by cases h), fun _ => rfl⟩
  obtain ⟨s, salt, hexec, hzero, hone⟩ : ∃ s salt, exec emptyState race = some s ∧
      s.calls 0 = .returned (List.replicate 32 1) ∧ s.calls 1 = .returned salt :=
    ⟨_, _, rfl, rfl, rfl⟩
  have hshared := (shared_salt hinit (exec_run hexec) .refl).2 0 _ hzero
  exact ⟨s, salt, hexec, hzero, hone, hshared.2.2 1 salt hone⟩

end SerialSalt
