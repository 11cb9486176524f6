import TsIngress.Remap.Impl.CacheKey
import TsIngress.Tsapi.Impl.Compress
import TsIngress.Tsapi.Impl.Cookies
import TsIngress.Tsapi.Impl.Intercept
import TsIngress.Tsapi.Impl.Plugin

/-!
This module contains the request side of `tsapi/remap.c`: `handle_remap`, what it reads of a request and what it has
Traffic Server do with it.
-/

structure ClientReq where
  method : Str
  -- every request has a scheme: `rr_proto` is no null pointer
  scheme : Str
  -- the host of the URL or else of the Host field
  host : Option Str
  path : Option Str
  query : Option Str
  hdr : MimeHdr
  addr : SockAddr
  -- is there a `tls` in the protocol stack of the client?
  tls : Bool

def hdrfieldKey (name : Str) : Str :=
  cstr (name.map tolower)

def hdrfieldOf (field : MimeField) : RemapHdrfield :=
  ⟨field.values.map cstr⟩

-- Texts are copied with a terminator behind them. `remap_run` reads them up to the first one.
def requestFromTxn (client : ClientReq) : RemapRequest where
  rrProto := cstr client.scheme
  rrMethod := cstr client.method
  rrHost := client.host.map fun host => (cstr host).takeWhile (· ≠ 58)
  rrPath := client.path.map cstr
  rrQuery := client.query.map cstr
  rrHdrfields := client.hdr.foldl (fun fields field => hashSet fields (hdrfieldKey field.name) (hdrfieldOf field))
    (hashNew 127)
  rrAddr := client.addr

inductive TsConfig where
  | normalizeAeGzip
  | insertResponseViaStr
  | insertRequestViaStr
  | responseServerEnabled
  | enableRedirection
  | redirectUseOrigCacheKey
  | sslHstsMaxAge
  | sslHstsIncludeSubdomains
  | connectAttemptsTimeout
  | postConnectAttemptsTimeout
  | cacheHttp
  | cacheGeneration
  deriving DecidableEq, Repr

structure Url where
  scheme : Option Str
  path : Option Str
  query : Option Str
  deriving DecidableEq

-- `TSHttpTxnServerAddrSet` gets an address and a port, or what a lookup has found, as it is.
inductive ServerAddr where
  | inet (addr : UInt32) (port : UInt16)
  | looked (data : List UInt8)
  deriving DecidableEq

structure TxnCtx extends RequestCtx where
  rqResponseHeaders : Hash Str := hashNew 127
  rqServerPush : Bool := false
  rqCacheEnabled : Bool := false
  rqCanCache : Bool := false
  rqDebugLog : Bool := false

structure Txn where
  clientReq : ClientReq
  url : Option Url := none
  config : List (TsConfig × Int) := []
  intercept : Option SynthConn := none
  serverAddr : Option ServerAddr := none
  hostLookup : Option Str := none
  cacheUrl : Option Str := none
  skipRemapping : Bool := false
  hooks : Option TxnCtx := none
  -- how often it was told to go on
  reenabled : Nat := 0

namespace Txn

def configSet (txn : Txn) (key : TsConfig) (value : Int) : Txn :=
  { txn with config := txn.config ++ [(key, value)] }

def setHdr (txn : Txn) (hdr : MimeHdr) : Txn :=
  { txn with clientReq := { txn.clientReq with hdr := hdr } }

def modifyCtx (txn : Txn) (f : TxnCtx → TxnCtx) : Txn :=
  { txn with hooks := txn.hooks.map f }

def reenable (txn : Txn) : Txn :=
  { txn with reenabled := txn.reenabled + 1 }

end Txn

def urlFromRemapResult (res : RemapResult) : Url where
  scheme := res.rzProto
  path := res.rzUrlpath
  query := res.rzQuery

def removeField (hdr : MimeHdr) (name : String) : MimeHdr :=
  match tsMimeHdrFieldFind hdr name with
  | some field => tsMimeHdrFieldRemove hdr field
  | none => hdr

def replaceField (hdr : MimeHdr) (name : String) (value : Str) : MimeHdr :=
  tsMimeHdrFieldAppend (removeField hdr name) name value

def setHostField (hdr : MimeHdr) (host : Str) : MimeHdr :=
  replaceField hdr "Host" host

def addXfp (hdr : MimeHdr) (tls : Bool) : MimeHdr :=
  replaceField hdr "X-Forwarded-Proto" (if tls then str "https" else str "http")

def handleRemapConfig (rh : RemapHost) (rp : RemapPath) (txn : Txn) : Txn :=
  let txn :=
    if rp.rpFollowRedirects then
      (txn.configSet .enableRedirection 1).configSet .redirectUseOrigCacheKey 1
    else
      txn
  let txn := if rh.rhHstsMaxAge ≠ 0 then txn.configSet .sslHstsMaxAge rh.rhHstsMaxAge else txn
  let txn := txn.configSet .sslHstsIncludeSubdomains (if rh.rhHstsSubdomains then 1 else 0)
  if rp.rpReadTimeout ≠ 0 then
    (txn.configSet .connectAttemptsTimeout rp.rpReadTimeout).configSet .postConnectAttemptsTimeout rp.rpReadTimeout
  else
    txn

def backendHost (req : RemapRequest) (rp : RemapPath) (target : RemapTarget) : Result Str :=
  if rp.rpPreserveHost then deref req.rrHost else .ok target.rtHost

def handleRemapFields (state : State) (host : Str) (txn : Txn) : Txn :=
  let hdr := setHostField txn.clientReq.hdr host
  if state.config.coXfp then
    txn.setHdr (addXfp hdr txn.clientReq.tls)
  else
    txn.setHdr hdr

def handleRemapCache (req : RemapRequest) (res : RemapResult) (rp : RemapPath) (txn : Txn) : Result Txn := do
  let txn := txn.configSet .cacheHttp 0
  if rp.rpCache then
    let (canCache, hdr) ← checkCookies rp txn.clientReq.hdr
    let txn := (txn.modifyCtx fun rctx => { rctx with rqCacheEnabled := true }).setHdr hdr
    if canCache then
      let txn := txn.modifyCtx fun rctx => { rctx with rqCanCache := true }
      let txn := (txn.configSet .cacheGeneration rp.rpCacheGen).configSet .cacheHttp 1
      let cacheurl ← remapMakeCacheKey req res
      return { txn with cacheUrl := some cacheurl }
    else
      return txn
  else
    return txn

def handleRemapTarget (env : Env) (target : RemapTarget) (txn : Txn) : Txn :=
  match env.inetPton4 target.rtHost with
  | some addr => { txn with serverAddr := some (.inet addr (UInt16.ofInt target.rtPort)) }.reenable
  | none => { txn with hostLookup := some target.rtHost }

def handleRemapOk (env : Env) (state : State) (req : RemapRequest) (res : RemapResult) (txn : Txn)
    : Result Txn := do
  let rh ← deref res.rzHost
  let rp ← deref res.rzPath
  let txn := { txn with url := some (urlFromRemapResult res) }
  let txn := txn.modifyCtx fun rctx => { rctx with rqServerPush := rp.rpServerPush }
  let txn := handleRemapConfig rh rp txn
  let target ← deref res.rzTarget
  let host ← backendHost req rp target
  let txn := handleRemapFields state host txn
  let txn ← handleRemapCache req res rp txn
  let txn := { txn with skipRemapping := true }
  let txn :=
    if rp.rpCompress then
      txn.modifyCtx fun rctx =>
        { rctx with toRequestCtx := tsiCompress { rctx.toRequestCtx with rqCompress := true } rp txn.clientReq.hdr }
    else
      txn
  return handleRemapTarget env target txn

def plainReply (status : Int) (reason : Str) (body : Option Str) : Synth :=
  let sy := synthNew status reason
  let sy := synthAddHeader sy (str "Content-Type") (str "text/plain;charset=UTF-8")
  synthSetBody sy body

-- A text that is missing is printed as `(null)`.
def remapReply (ret : RR) (res : RemapResult) : Option Synth :=
  match ret with
  | .synthetic => some (plainReply res.rzStatus (res.rzStatusText.getD (str "(null)")) res.rzBody)
  | .errInvalidHost | .errInvalidProtocol =>
    some (plainReply 400 (str "Bad request") (some (str "The server could not undestand this request.\r\n")))
  | .errNoBackend =>
    some (plainReply 503 (str "Service unavailable")
      (some (str "No backend is available to service this request.\r\n")))
  | .errForbidden => some (plainReply 403 (str "Forbidden") (some (str "Access denied.\r\n")))
  | .errUnauthorized => some (plainReply 401 (str "Unauthorized") (some (str "Unauthorized.\r\n")))
  | .errNoHost | .errNoPath => none
  | .ok => none

def handleRemap (env : Env) (state : State) (rnd : Nat) (txn : Txn) : Result Txn :=
  match state.db with
  | none => return txn
  | some db => do
    let txn := { txn with hooks := some {} }
    let txn := (txn.configSet .normalizeAeGzip 0).configSet .insertResponseViaStr 0
    let txn := (txn.configSet .insertRequestViaStr 1).configSet .responseServerEnabled 0
    let req := requestFromTxn txn.clientReq
    let (ret, res) ← remapRun env db req rnd
    let txn := txn.modifyCtx fun rctx =>
      { rctx with rqResponseHeaders := res.rzHeaders, rqDebugLog := res.rzPath.any (·.rpDebugLog) }
    if ret = .ok then
      handleRemapOk env state req res txn
    else
      return { txn with intercept := (remapReply ret res).map synthIntercept }.reenable

def externalLookup (data : Option (List UInt8)) (txn : Txn) : Txn :=
  match data with
  | some data => { txn with serverAddr := some (.looked data) }.reenable
  | none => txn.reenable

def handleRequest (env : Env) (state : State) (rnd : Nat) (data : Option (List UInt8)) (txn : Txn) : Result Txn := do
  let txn ← handleRemap env state rnd txn
  if txn.hostLookup.isSome then
    return externalLookup data txn
  else
    return txn
