/-
The static files of the WSS proxy.

A request target is normalized once: the query is cut, an absolute form is reduced to its path,
percent escapes are decoded, and the segments are resolved with a stack.  The handler dispatches on
the normalized path and reads a file only below the client directory; the hook that adds the CORS
headers normalizes the target again.

* `normalizeRequestPath`, `Server.handleHttpRequest`, `Server.addCorsHeaders` — the proxy;
* `normalizeRequestPath_segments`, `normalizeRequestPath_eq_none_iff` — the normalized paths;
* `Server.route_static` — the files that are asked for;
* `Server.static_containment` — all requests.
-/
import IsaacTeleop.PythonText
import Mathlib.Data.List.SplitBy

open PyStr

namespace StaticServing

/-! ### Percent escapes -/

/-- `unquote_to_bytes` of an ASCII string. -/
def unquoteToBytes : PyStr → ByteText
  | [] => []
  | c :: a :: b :: rest =>
    if c = ch '%' then
      match hexDigit a, hexDigit b with
      | some x, some y => UInt8.ofNat (16 * x + y) :: unquoteToBytes rest
      | _, _ => UInt8.ofNat c :: unquoteToBytes (a :: b :: rest)
    else UInt8.ofNat c :: unquoteToBytes (a :: b :: rest)
  | c :: rest => UInt8.ofNat c :: unquoteToBytes rest

/-- `unquote(string, errors="replace")`: the escapes of each run of ASCII characters. -/
def unquote (s : PyStr) : PyStr :=
  if ch '%' ∈ s then
    (s.splitBy fun a b => decide (a < 128) == decide (b < 128)).flatMap fun run =>
      if run.all (· < 128) then decodeReplace (unquoteToBytes run) else run
  else s

/-! ### Request targets -/

/-- The path of `urlparse` of an `http` or `https` URL without a query; `none` is a `ValueError`.
`checkNetloc` stands for the checks of a bracketed host and of characters that normalize to
delimiters. -/
def urlparsePath (checkNetloc : PyStr → Bool) (url : PyStr) : Option PyStr :=
  let url := url.filter fun c => c ≠ ch '\t' ∧ c ≠ ch '\r' ∧ c ≠ ch '\n'
  -- After the scheme, the colon and the two slashes.
  let rest := (url.dropWhile (· ≠ ch ':')).drop 3
  let netloc := rest.takeWhile fun c => c ≠ ch '/' ∧ c ≠ ch '?' ∧ c ≠ ch '#'
  let path := rest.drop netloc.length
  if (ch '[' ∈ netloc ∧ ch ']' ∉ netloc) ∨ (ch ']' ∈ netloc ∧ ch '[' ∉ netloc) then none
  else if checkNetloc netloc then
    let path := path.takeWhile (· ≠ ch '#')
    -- `_splitparams`: the parameters of the last segment.
    let segment := (path.reverse.takeWhile (· ≠ ch '/')).reverse
    some (path.take (path.length - segment.length) ++ segment.takeWhile (· ≠ ch ';'))
  else none

/-- `a or b` of strings. -/
def orElse (a b : PyStr) : PyStr := if a = [] then b else a

/-- `"http://"` or `"https://"`. -/
def isAbsolute (path : PyStr) : Bool :=
  (ofString "http://").isPrefixOf path || (ofString "https://").isPrefixOf path

/-- The loop over the segments. -/
def resolve (segments : List PyStr) : List PyStr :=
  segments.foldl
    (fun stack seg => if seg = ofString ".." then stack.dropLast else stack ++ [seg]) []

/-- `"/".join(stack)` -/
def join (stack : List PyStr) : PyStr := [ch '/'].intercalate stack

/-- What is decoded and split: the target without its query, or the path of an absolute one. -/
def targetPath (checkNetloc : PyStr → Bool) (rawPath : PyStr) : Option PyStr :=
  let path := orElse ((orElse rawPath (ofString "/")).takeWhile (· ≠ ch '?')) (ofString "/")
  if isAbsolute path then (urlparsePath checkNetloc path).map (orElse · (ofString "/"))
  else some path

/-- `_normalize_request_path`; `none` is a `ValueError`. -/
def normalizeRequestPath (checkNetloc : PyStr → Bool) (rawPath : PyStr) : Option PyStr :=
  (targetPath checkNetloc rawPath).map fun path =>
    let segments := ((unquote path).splitOn (ch '/')).filter fun p => p ≠ [] ∧ p ≠ ofString "."
    let stack := resolve segments
    if stack = [] then ofString "/" else ch '/' :: join stack

/-- `_is_oob_hub_http_path` -/
def isOobHubHttpPath (path : PyStr) : Bool :=
  path ∈ [ofString "/api/oob/v1/state", ofString "/api/oob/v1/config",
    ofString "/api/oob/v1/connect"]

/-! ### The handler -/

abbrev HttpHeaders := List (PyStr × PyStr)

structure HttpRequest where
  path : PyStr
  /-- `request.headers.get("Upgrade", "").lower() == "websocket"` -/
  upgrade : Bool := false
  /-- `Access-Control-Request-Method` is there and not empty -/
  preflight : Bool := false

structure HttpResponse where
  status : ℕ
  phrase : PyStr
  headers : HttpHeaders
  body : ByteText

/-- `CORS_HEADERS` -/
def corsHeaders : HttpHeaders :=
  [(ofString "Access-Control-Allow-Origin", ofString "*"),
    (ofString "Access-Control-Allow-Headers", ofString "*"),
    (ofString "Access-Control-Allow-Methods", ofString "GET, POST, PUT, DELETE, OPTIONS"),
    (ofString "Access-Control-Expose-Headers", ofString "*")]

/-- What `read_bytes` does: the bytes, an `OSError`, or another exception. -/
inductive FileRead
  | bytes (body : ByteText)
  | osError
  | raised

/-- What the handler is made of: the hub API if there is a hub, the client directory, the file
system, and what it takes from the standard library. -/
structure Server where
  hub : Option (PyStr → HttpRequest → HttpResponse)
  staticDir : Option (List PyStr)
  readBytes : List PyStr → FileRead
  guessType : PyStr → Option PyStr
  checkNetloc : PyStr → Bool
  certHtml : ByteText

/-- What the handler returns. -/
inductive Handling
  /-- `None`: the connection goes on as a WebSocket -/
  | declined
  | raised
  | response (r : HttpResponse)

/-- Where a request goes. -/
inductive Route
  | hubApi (api : PyStr → HttpRequest → HttpResponse)
  | hubMissing
  | redirect (location : PyStr)
  | refused
  | file (dir : List PyStr) (tail : PyStr)
  | certPage

/-- `_MIME` -/
def mime : List (PyStr × PyStr) :=
  [(ofString "index.html", ofString "text/html; charset=utf-8"),
    (ofString "bundle.js", ofString "application/javascript; charset=utf-8"),
    (ofString "bundle.emulator.js", ofString "application/javascript; charset=utf-8")]

/-- The prefix of the input profiles. -/
def profilesPrefix : PyStr := ofString "npm/@webxr-input-profiles/assets@"

/-- `static_dir / tail` of POSIX paths: an absolute path replaces the directory. -/
def joinPath (dir : List PyStr) (tail : PyStr) : List PyStr :=
  let parts := (tail.splitOn (ch '/')).filter fun p => p ≠ [] ∧ p ≠ ofString "."
  if tail.head? = some (ch '/') then parts else dir ++ parts

def contentType (value : String) : HttpHeaders := [(ofString "Content-Type", ofString value)]

namespace Server

variable (server : Server)

/-- The dispatch of `handle_http_request` on the normalized path. -/
def route (rawPath path : PyStr) : Route :=
  if isOobHubHttpPath path then
    match server.hub with
    | some api => .hubApi api
    | none => .hubMissing
  else
    match server.staticDir with
    | none => .certPage
    | some dir =>
      if path = ofString "/client" ∨ ofString "/client/" <+: path then
        let target := rawPath.takeWhile (· ≠ ch '?')
        let query := (rawPath.dropWhile (· ≠ ch '?')).drop 1
        if path = ofString "/client" ∧ target.getLast? ≠ some (ch '/') then
          .redirect (ofString "/client/" ++ if query = [] then [] else ch '?' :: query)
        else
          let tail := orElse ((path.drop 7).dropWhile (· = ch '/')) (ofString "index.html")
          if tail ∉ mime.map Prod.fst ∧ ¬ profilesPrefix <+: tail then .refused
          else .file dir tail
      else .certPage

def notFound : HttpResponse :=
  ⟨404, ofString "Not Found", contentType "text/plain" ++ corsHeaders, (ofString "Not found").utf8⟩

/-- The response of a route, and the files that it reads. -/
def serve (request : HttpRequest) (path : PyStr) : Route → Handling × List (List PyStr)
  | .hubApi api => (.response (api path request), [])
  | .hubMissing => (.response ⟨404, ofString "Not Found", contentType "text/plain",
      (ofString "Not found").utf8⟩, [])
  | .redirect location => (.response ⟨302, ofString "Found",
      (ofString "Location", location) :: corsHeaders, []⟩, [])
  | .refused => (.response notFound, [])
  | .file dir tail =>
    let file := joinPath dir tail
    (match server.readBytes file with
    | .raised => .raised
    | .osError => .response notFound
    | .bytes body => .response ⟨200, ofString "OK",
        [(ofString "Content-Type", (mime.lookup tail <|> server.guessType tail).getD
            (ofString "application/octet-stream")),
          (ofString "Content-Length", ofString (toString body.length)),
          (ofString "Cache-Control", ofString "no-store")] ++ corsHeaders, body⟩, [file])
  | .certPage => (.response ⟨200, ofString "OK",
      contentType "text/html; charset=utf-8" ++ corsHeaders, server.certHtml⟩, [])

/-- `handle_http_request`, with the files that it reads. -/
def handleHttpRequest (request : HttpRequest) : Handling × List (List PyStr) :=
  if request.upgrade then (.declined, [])
  else if request.preflight then
    (.response ⟨200, ofString "OK", contentType "text/plain" ++ corsHeaders,
      (ofString "OK").utf8⟩, [])
  else
    let rawPath := orElse request.path (ofString "/")
    match normalizeRequestPath server.checkNetloc rawPath with
    | none => (.raised, [])
    | some path => server.serve request path (server.route rawPath path)

/-- `add_cors_headers`; `none` is a `ValueError`. -/
def addCorsHeaders (request : HttpRequest) (response : HttpResponse) : Option HttpResponse :=
  (normalizeRequestPath server.checkNetloc (orElse request.path (ofString "/"))).map fun path =>
    if isOobHubHttpPath path then response
    else { response with headers := response.headers ++ corsHeaders }

end Server

/-! ### Normalized paths -/

/-- A segment of a normalized path. -/
structure Proper (seg : PyStr) : Prop where
  ne_nil : seg ≠ []
  ne_dot : seg ≠ ofString "."
  ne_dotdot : seg ≠ ofString ".."
  no_slash : ch '/' ∉ seg

/-- A root, or a path of proper segments. -/
def Normal (path : PyStr) : Prop :=
  path = ofString "/" ∨ ∃ segs : List PyStr, segs ≠ [] ∧ (∀ seg ∈ segs, Proper seg) ∧
    path = ch '/' :: join segs

/-- The target without its query. -/
def queryless (rawPath : PyStr) : PyStr :=
  orElse ((orElse rawPath (ofString "/")).takeWhile (· ≠ ch '?')) (ofString "/")

theorem not_mem_of_mem_splitOn (x : ℕ) (s : PyStr) : ∀ piece ∈ s.splitOn x, x ∉ piece := by
  induction s with
  | nil => simp
  | cons c s ih =>
    rw [List.splitOn_cons_eq_if_modifyHead]
    split
    · intro piece hpiece
      rcases List.mem_cons.mp hpiece with rfl | hpiece
      · exact List.not_mem_nil
      · exact ih piece hpiece
    · rename_i hne
      obtain ⟨first, rest, hsplit⟩ := List.exists_cons_of_ne_nil (List.splitOn_ne_nil x s)
      rw [hsplit] at ih ⊢
      intro piece hpiece
      rcases List.mem_cons.mp hpiece with rfl | hpiece
      · rw [List.mem_cons, not_or]
        refine ⟨fun heq => hne ?_, ih first List.mem_cons_self⟩
        rw [heq]
        exact beq_self_eq_true c
      · exact ih piece (List.mem_cons_of_mem _ hpiece)

/-- The stack holds proper segments only. -/
theorem resolve_proper {segments : List PyStr}
    (h : ∀ seg ∈ segments, seg ≠ [] ∧ seg ≠ ofString "." ∧ ch '/' ∉ seg) :
    ∀ seg ∈ resolve segments, Proper seg := by
  unfold resolve
  induction segments using List.reverseRecOn with
  | nil => simp
  | append_singleton segments last ih =>
    have hbefore := ih fun seg hseg => h seg (List.mem_append_left _ hseg)
    obtain ⟨hnil, hdot, hslash⟩ := h last (by simp)
    rw [List.foldl_append, List.foldl_cons, List.foldl_nil]
    intro seg hseg
    split at hseg
    · exact hbefore seg (List.mem_of_mem_dropLast hseg)
    · rename_i hdotdot
      rcases List.mem_append.mp hseg with hseg | hseg
      · exact hbefore seg hseg
      · obtain rfl := List.mem_singleton.mp hseg
        exact ⟨hnil, hdot, hdotdot, hslash⟩

/-- **A normalized path** has proper segments only. -/
theorem normalizeRequestPath_segments {checkNetloc : PyStr → Bool} {rawPath path : PyStr}
    (h : normalizeRequestPath checkNetloc rawPath = some path) : Normal path := by
  obtain ⟨target, -, rfl⟩ := Option.map_eq_some_iff.mp h
  dsimp only
  split
  · exact .inl rfl
  · rename_i hstack
    refine .inr ⟨_, hstack, resolve_proper ?_, rfl⟩
    intro seg hseg
    obtain ⟨hmem, hkept⟩ := List.mem_filter.mp hseg
    have hkept := of_decide_eq_true hkept
    exact ⟨hkept.1, hkept.2, not_mem_of_mem_splitOn _ _ seg hmem⟩

example : normalizeRequestPath (fun _ => true)
    (ofString "http://host/client/x/%2e%2e/..%2F%2fclient/./b%c3;v=1?q") =
      some (ofString "/client/b\uFFFD") := by decide

/-- Only an absolute target that `urlparse` rejects has no normalized path. -/
theorem normalizeRequestPath_eq_none_iff {checkNetloc : PyStr → Bool} {rawPath : PyStr} :
    normalizeRequestPath checkNetloc rawPath = none ↔
      isAbsolute (queryless rawPath) = true ∧
        urlparsePath checkNetloc (queryless rawPath) = none := by
  rw [normalizeRequestPath, Option.map_eq_none_iff, targetPath, ← queryless]
  split
  · rename_i habsolute
    rw [Option.map_eq_none_iff, and_iff_right habsolute]
  · rename_i habsolute
    simp [habsolute]

/-! ### The files -/

theorem splitOn_join {segs : List PyStr} (h : segs ≠ []) (hproper : ∀ seg ∈ segs, Proper seg) :
    (join segs).splitOn (ch '/') = segs :=
  List.splitOn_intercalate _ (fun seg hseg => (hproper seg hseg).no_slash) h

theorem join_splitOn (s : PyStr) : join (s.splitOn (ch '/')) = s := List.intercalate_splitOn _

/-- The names below the client directory are proper. -/
theorem Normal.below_client {path rest : PyStr} (h : Normal path)
    (hpath : path = ofString "/client/" ++ rest) :
    rest.splitOn (ch '/') ≠ [] ∧ (∀ seg ∈ rest.splitOn (ch '/'), Proper seg) ∧
      rest.dropWhile (· = ch '/') = rest ∧ rest ≠ [] := by
  have hclient : path = ch '/' :: (ofString "client" ++ ch '/' :: rest) := hpath
  rcases h with hroot | ⟨segs, hsegs, hproper, hjoin⟩
  · rw [hroot] at hclient
    cases hclient
  · have hsame : join segs = ofString "client" ++ ch '/' :: rest :=
      List.tail_eq_of_cons_eq (hjoin.symm.trans hclient)
    -- The segments after the first are those of the rest.
    have hsplit : segs = ofString "client" :: rest.splitOn (ch '/') := by
      rw [← splitOn_join hsegs hproper, hsame]
      exact List.splitOn_append_cons_self_of_not_mem (by decide) rest
    rw [hsplit] at hproper
    have hrest := (List.forall_mem_cons.mp hproper).2
    refine ⟨List.splitOn_ne_nil _ _, hrest, ?_, ?_⟩
    · cases rest with
      | nil => rfl
      | cons c rest =>
        refine List.dropWhile_cons_of_neg fun hslash => ?_
        obtain rfl := of_decide_eq_true hslash
        exact (hrest [] (by simp [List.splitOn_cons_eq_if_modifyHead])).ne_nil rfl
    · rintro rfl
      exact (hrest [] (by simp)).ne_nil rfl

theorem proper_index : Proper (ofString "index.html") := by
  constructor <;> decide

namespace Server

variable {server : Server}

/-- **A file that is asked for**: a name of proper segments that is listed or has the prefix. -/
theorem route_static {rawPath path tail : PyStr} {dir : List PyStr} (h : Normal path)
    (hroute : server.route rawPath path = .file dir tail) :
    server.staticDir = some dir ∧ (tail ∈ mime.map Prod.fst ∨ profilesPrefix <+: tail) ∧
      ∃ segs : List PyStr, segs ≠ [] ∧ (∀ seg ∈ segs, Proper seg) ∧ tail = join segs := by
  unfold route at hroute
  split at hroute
  · split at hroute <;> cases hroute
  cases hdir : server.staticDir with
  | none =>
    rw [hdir] at hroute
    cases hroute
  | some dir' =>
  rw [hdir] at hroute
  dsimp only at hroute
  split at hroute
  swap
  · cases hroute
  rename_i hclient
  split at hroute
  · cases hroute
  split at hroute
  · cases hroute
  -- The tail is named in the table or stands under the profiles.
  rename_i hnamed
  obtain ⟨rfl, rfl⟩ := Route.file.inj hroute
  refine ⟨rfl, ?_, ?_⟩
  · rwa [not_and_or, not_not, not_not] at hnamed
  · rcases hclient with rfl | ⟨rest, rfl⟩
    · exact ⟨[ofString "index.html"], by simp, by simp [proper_index], by decide⟩
    · -- The path was normal, so no segment below the client is empty or climbs up.
      obtain ⟨hne, hproper, hdrop, hrest⟩ := h.below_client rfl
      refine ⟨rest.splitOn (ch '/'), hne, hproper, ?_⟩
      have htail : (ofString "/client/" ++ rest).drop 7 = ch '/' :: rest := rfl
      rw [htail, List.dropWhile_cons_of_pos (by decide), hdrop, orElse, if_neg hrest, join_splitOn]

/-- Proper segments are what the path below the directory consists of. -/
theorem joinPath_join (dir : List PyStr) {segs : List PyStr} (h : segs ≠ [])
    (hproper : ∀ seg ∈ segs, Proper seg) :
    joinPath dir (join segs) = dir ++ segs := by
  have hsplit := splitOn_join h hproper
  have hparts : segs.filter (fun p => p ≠ [] ∧ p ≠ ofString ".") = segs :=
    List.filter_eq_self.mpr fun seg hseg =>
      decide_eq_true ⟨(hproper seg hseg).ne_nil, (hproper seg hseg).ne_dot⟩
  have hrelative : (join segs).head? ≠ some (ch '/') := by
    intro hhead
    obtain ⟨rest, hrest⟩ := List.head?_eq_some_iff.mp hhead
    rw [hrest, List.splitOn_cons_eq_if_modifyHead, if_pos (by decide)] at hsplit
    exact (hproper [] (by simp [← hsplit])).ne_nil rfl
  rw [joinPath, hsplit, hparts, if_neg hrelative]

end Server

/-- Where a path leads without symbolic links. -/
def landing (path : List PyStr) : List PyStr :=
  resolve (path.filter fun part => part ≠ ofString ".")

theorem landing_append {dir segs : List PyStr} (hproper : ∀ seg ∈ segs, Proper seg) :
    landing (dir ++ segs) = landing dir ++ segs := by
  have hkept : segs.filter (fun part => part ≠ ofString ".") = segs :=
    List.filter_eq_self.mpr fun seg hseg => decide_eq_true (hproper seg hseg).ne_dot
  rw [landing, landing, List.filter_append, hkept, resolve, List.foldl_append, ← resolve]
  generalize resolve (dir.filter fun part => part ≠ ofString ".") = stack
  induction segs generalizing stack with
  | nil => rw [List.foldl_nil, List.append_nil]
  | cons seg segs ih =>
    obtain ⟨hseg, hsegs⟩ := List.forall_mem_cons.mp hproper
    rw [List.foldl_cons, if_neg hseg.ne_dotdot, ih hsegs
      (List.filter_eq_self.mpr fun seg' hseg' => decide_eq_true (hsegs seg' hseg').ne_dot),
      List.append_assoc, List.singleton_append]

/-- The routes of the hub API. -/
def Route.IsHub : Route → Prop
  | .hubApi _ => True
  | .hubMissing => True
  | _ => False

namespace Server

variable (server : Server)

theorem route_isHub_iff (rawPath path : PyStr) :
    (server.route rawPath path).IsHub ↔ isOobHubHttpPath path = true := by
  unfold route
  split
  · rename_i hhub
    cases server.hub <;> simp [Route.IsHub, hhub]
  · rename_i hhub
    refine iff_of_false ?_ hhub
    cases server.staticDir with
    | none => exact id
    | some dir =>
      dsimp only
      split
      · split
        · exact id
        · split <;> exact id
      · exact id

/-- **Static serving.**  A target has a normalized path, which is a root or consists of proper
segments, unless it is an absolute one that `urlparse` rejects.  Every file that the handler reads
is the client directory with proper segments after it, which form a listed name or one with the
prefix of the profiles, and leads below that directory.  And a target goes to the hub API exactly
when its responses get no CORS headers. -/
theorem static_containment (request : HttpRequest) :
    (∀ rawPath, (normalizeRequestPath server.checkNetloc rawPath = none ↔
        isAbsolute (queryless rawPath) = true ∧
          urlparsePath server.checkNetloc (queryless rawPath) = none) ∧
      ∀ path, normalizeRequestPath server.checkNetloc rawPath = some path → Normal path) ∧
    (∀ file ∈ (server.handleHttpRequest request).2, ∃ dir segs : List PyStr,
      server.staticDir = some dir ∧ file = dir ++ segs ∧ segs ≠ [] ∧
      (∀ seg ∈ segs, Proper seg) ∧
      (join segs ∈ mime.map Prod.fst ∨ profilesPrefix <+: join segs) ∧
      landing file = landing dir ++ segs) ∧
    ∀ path, normalizeRequestPath server.checkNetloc (orElse request.path (ofString "/")) =
        some path →
      ((server.route (orElse request.path (ofString "/")) path).IsHub ↔
        ∀ response, server.addCorsHeaders request response = some response) := by
  refine ⟨fun rawPath => ⟨normalizeRequestPath_eq_none_iff, fun path =>
    normalizeRequestPath_segments⟩, ?_, ?_⟩
  · intro file hfile
    unfold handleHttpRequest at hfile
    split at hfile
    · cases hfile
    split at hfile
    · cases hfile
    dsimp only at hfile
    split at hfile
    · cases hfile
    rename_i path hpath
    -- Only one route reads a file.
    cases hroute : server.route (orElse request.path (ofString "/")) path with
    | file dir tail =>
      rw [hroute] at hfile
      obtain rfl := List.mem_singleton.mp hfile
      obtain ⟨hdir, hnamed, segs, hne, hproper, rfl⟩ :=
        route_static (normalizeRequestPath_segments hpath) hroute
      have hjoin := joinPath_join dir hne hproper
      refine ⟨dir, segs, hdir, hjoin, hne, hproper, hnamed, ?_⟩
      rw [hjoin]
      exact landing_append hproper
    | hubApi api =>
      rw [hroute] at hfile
      cases hfile
    | hubMissing =>
      rw [hroute] at hfile
      cases hfile
    | redirect location =>
      rw [hroute] at hfile
      cases hfile
    | refused =>
      rw [hroute] at hfile
      cases hfile
    | certPage =>
      rw [hroute] at hfile
      cases hfile
  · intro path hpath
    rw [route_isHub_iff]
    constructor
    · intro hhub response
      rw [addCorsHeaders, hpath, Option.map_some, if_pos hhub]
    · intro hsame
      by_contra hhub
      have hheaders := hsame ⟨200, [], [], []⟩
      rw [addCorsHeaders, hpath, Option.map_some, if_neg hhub] at hheaders
      exact absurd (congrArg HttpResponse.headers (Option.some_inj.mp hheaders)) (by decide)

end Server

/-- A bracket in an absolute target is no address, and the target is not normalized. -/
theorem bracket_target_raises :
    normalizeRequestPath (fun _ => true) (ofString "http://[") = none := by
  decide

end StaticServing
