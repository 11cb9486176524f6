import TsIngress.Tsapi.Impl.Txn

/-!
This module contains the response side of `tsapi/remap.c`: the hooks that `handle_remap` adds to a transaction. The
calls for compression are in `tsiEvent`.
-/

structure Proxy where
  viaName : Str
  myhostname : Str
  -- the protocol stack of the client
  stack : List Str

def setResponseHeaders (headers : Hash Str) (resp : MimeHdr) : MimeHdr :=
  headers.entries.foldl (fun resp e => resp ++ [⟨e.1, [e.2]⟩]) resp

def setField (resp : MimeHdr) (name : String) (values : List Str → List Str) : MimeHdr :=
  match tsMimeHdrFieldFind resp name with
  | none => resp ++ [⟨str name, values []⟩]
  | some hdr => tsMimeHdrFieldValuesSet resp hdr (values (tsMimeHdrFieldValues resp hdr))

def setVia (proxy : Proxy) (resp : MimeHdr) : MimeHdr :=
  let via := snprintf 256
    (proxy.stack.headD (str "http/1.0") ++ str " " ++ proxy.myhostname ++ str " (" ++ proxy.viaName ++ str ")")
  setField resp "Via" (via :: ·)

def setServer (proxy : Proxy) (resp : MimeHdr) : MimeHdr :=
  setField resp "Server" fun _ => [proxy.viaName]

def setCacheControl (resp : MimeHdr) : MimeHdr :=
  match tsMimeHdrFieldFind resp "X-Next-Hop-Cache-Control" with
  | none => resp
  | some hdr =>
    let values := tsMimeHdrFieldValues resp hdr
    removeField (removeField resp "Cache-Control") "X-Next-Hop-Cache-Control" ++ [⟨str "Cache-Control", values⟩]

def setHeaders (proxy : Proxy) (rctx : TxnCtx) (resp : MimeHdr) : MimeHdr :=
  let resp := setResponseHeaders rctx.rqResponseHeaders resp
  let resp := setVia proxy resp
  let resp := setServer proxy resp
  setCacheControl resp

def cacheStatusName : CacheLookupStatus → Str
  | .miss => str "miss"
  | .hitStale => str "hit-stale"
  | .hitFresh => str "hit-fresh"
  | .skipped => str "skipped"

-- A status that Traffic Server does not have is unknown.
def addCacheStatus (status : Option CacheLookupStatus) (cacheGen : Int) (resp : MimeHdr) : MimeHdr :=
  let name := (status.map cacheStatusName).getD (str "unknown")
  let buf := snprintf 64 (name ++ str " (" ++ formatInt cacheGen ++ str ")")
  setField resp "X-Cache-Status" (buf :: ·)

def checkResponseCache (resp : MimeHdr) : Bool :=
  (tsMimeHdrFieldFind resp "Set-Cookie").isSome

structure LinkValue where
  nopush : Bool := false
  relpreload : Bool := false
  url : Option Str := none

def linkToken (link : LinkValue) (t : Str) : LinkValue :=
  if t = str "nopush" then
    { link with nopush := true }
  else if t = str "rel=preload" then
    { link with relpreload := true }
  else if 3 ≤ t.length ∧ t[0]? = some 60 ∧ t[1]? = some 47 ∧ t.getLast? = some 62 then
    { link with url := some ((t.drop 2).take (t.length - 3)) }
  else
    link

def linkPush (value : Str) : Option Str :=
  let link := (strtok (str "; ") (cstr value)).foldl linkToken {}
  if link.nopush ∨ !link.relpreload then
    none
  else
    link.url

-- The scheme of the request may have been changed for the backend. The name is compared byte by byte.
def serverPush (tls : Bool) (requrl : Url) (resp : MimeHdr) : List Url :=
  (resp.filter fun field => field.name = str "Link").flatMap fun field =>
    (field.values.filterMap linkPush).map fun path =>
      { requrl with path := some path, scheme := if tls then some (str "https") else requrl.scheme }

structure HookState where
  rctx : TxnCtx
  comp : TxnState
  noStore : Bool := false
  pushed : List Url := []
  reenabled : Nat := 0

structure HookEnv where
  proxy : Proxy
  tls : Bool
  requrl : Url
  cacheGen : Int
  -- the status of the cache lookup when the response is sent
  lookup : Option CacheLookupStatus

def pushesOf (henv : HookEnv) (rctx : TxnCtx) (resp : Option MimeHdr) : List Url :=
  match resp with
  | none => []
  | some resp => if rctx.rqServerPush then serverPush henv.tls henv.requrl resp else []

/--
The events of a transaction up to its close. What `tsi_event` does for compression comes behind the other calls,
except for the status of the cache.
-/
def tsiHook (henv : HookEnv) (st : HookState) (event : TxnEvent) : Result HookState :=
  match event with
  | .cacheLookupComplete status cachedResp => do
    let resp := if status = .hitFresh then cachedResp else none
    let comp ← tsiEvent st.comp event
    return { st with
      comp := comp
      pushed := st.pushed ++ pushesOf henv st.rctx resp
      reenabled := st.reenabled + 1 }
  | .sendRequestHdr _ => do
    let comp ← tsiEvent st.comp event
    return { st with comp := comp, reenabled := st.reenabled + 1 }
  | .readResponseHdr serverResp => do
    let noStore := st.rctx.rqCanCache && serverResp.any checkResponseCache
    let comp ← tsiEvent st.comp event
    return { st with
      comp := comp
      noStore := st.noStore || noStore
      pushed := st.pushed ++ pushesOf henv st.rctx serverResp
      reenabled := st.reenabled + 1 }
  | .sendResponseHdr clientResp => do
    let comp ← tsiEvent st.comp (.sendResponseHdr (setHeaders henv.proxy st.rctx clientResp))
    let resp :=
      if st.rctx.rqCacheEnabled then addCacheStatus henv.lookup henv.cacheGen comp.clientResp else comp.clientResp
    return { st with comp := { comp with clientResp := resp }, reenabled := st.reenabled + 1 }

def hookStart (rctx : TxnCtx) : HookState where
  rctx := rctx
  comp := ⟨rctx.toRequestCtx, 0, [], []⟩

def tsiHooks (henv : HookEnv) (rctx : TxnCtx) (events : List TxnEvent) : Result HookState :=
  events.foldlM (tsiHook henv) (hookStart rctx)
