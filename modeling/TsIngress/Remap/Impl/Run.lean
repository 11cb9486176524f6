import TsIngress.Remap.Impl.Build
import TsIngress.Auth.Impl.Address
import TsIngress.Auth.Impl.Basic
import TsIngress.Util.Impl.StrMatch

/-!
This module contains the request processing of `remap/remap_db.c`. The functions that read the host
and the path of the result get them as arguments.
-/

def rrCheckProto (req : RemapRequest) (rp : RemapPath) (res : RemapResult) : RR × RemapResult :=
  if req.rrProto = str "http" ∨ req.rrProto = str "https" then
    (.ok, { res with rzProto := some (if rp.rpSecureBackends then str "https" else str "http") })
  else if req.rrProto = str "ws" ∨ req.rrProto = str "wss" then
    (.ok, { res with rzProto := some (if rp.rpSecureBackends then str "wss" else str "ws") })
  else
    (.errInvalidProtocol, res)

def RemapResult.redirect (res : RemapResult) (location : Str) : RemapResult :=
  { res with
    rzHeaders := hashSet res.rzHeaders (str "Location") location
    rzStatus := 301
    rzStatusText := some (str "Moved")
    rzBody := some (str "This document has moved.\n") }

def rrCheckAppRoot (req : RemapRequest) (rp : RemapPath) (res : RemapResult) : RR × RemapResult :=
  match rp.rpAppRoot, req.rrPath with
  | some root, none => (.synthetic, res.redirect root)
  | _, _ => (.ok, res)

def tlsLocation (req : RemapRequest) (host : Str) : Str :=
  let newp := if req.rrProto = str "ws" then str "wss" else str "https"
  let path := req.rrPath.getD []
  let query := (req.rrQuery.map fun q => str "?" ++ q).getD []
  let blen := newp.length + 3 + host.length + 1 + 1 + path.length + query.length
  snprintf blen (newp ++ str "://" ++ host ++ str "/" ++ path ++ query)

def rrCheckTls (req : RemapRequest) (host : Str) (rh : RemapHost) (rp : RemapPath)
    (res : RemapResult) : RR × RemapResult :=
  if req.rrProto = str "https" ∨ req.rrProto = str "wss" then
    (.ok, res)
  else if rp.rpNoSslRedirect then
    (.ok, res)
  else if rh.rhCtx.isNone ∧ !rp.rpForceSslRedirect then
    (.ok, res)
  else
    (.synthetic, res.redirect (tlsLocation req host))

def setHeader (res : RemapResult) (name : String) (value : Str) : RemapResult :=
  { res with rzHeaders := hashSet res.rzHeaders (str name) value }

def setHeaderIf (res : RemapResult) (name : String) (value : Option Str) : RemapResult :=
  match value with
  | none => res
  | some value => setHeader res name value

def rrCheckCors (req : RemapRequest) (rp : RemapPath) (res : RemapResult) : RR × RemapResult :=
  if !rp.rpEnableCors then
    (.ok, res)
  else
    match hashGet req.rrHdrfields (str "origin") with
    | none => (.ok, res)
    | some hdr =>
      match hdr.rhValues with
      | [origin] =>
        if hashPresent rp.rpCorsOrigins (str "*") then
          preflight (setHeader res "Access-Control-Allow-Origin" (str "*"))
        else if hashPresent rp.rpCorsOrigins origin then
          preflight (setHeader (setHeader res "Access-Control-Allow-Origin" origin) "Vary" (str "Origin"))
        else
          (.ok, res)
      | _ => (.ok, res)
where
  preflight (res : RemapResult) : RR × RemapResult :=
    if req.rrMethod ≠ str "OPTIONS" then
      (.ok, res)
    else
      let res := setHeaderIf res "Access-Control-Allow-Methods" rp.rpCorsMethods
      let res := setHeaderIf res "Access-Control-Allow-Headers" rp.rpCorsHeaders
      let res := setHeaderIf res "Access-Control-Max-Age"
        (if rp.rpCorsMaxAge ≠ 0 then some (snprintf 32 (formatInt rp.rpCorsMaxAge)) else none)
      let res := setHeaderIf res "Access-Control-Allow-Credentials"
        (if rp.rpCorsCreds then some (str "true") else none)
      (.synthetic, { res with rzStatus := 204, rzStatusText := some (str "No content") })

def setWwwauthHeader (rp : RemapPath) (res : RemapResult) : Result RemapResult := do
  let realm ← deref rp.rpAuthRealm
  let len := (str "Basic realm=\"\"").length + 1 + realm.length
  return setHeader res "WWW-Authenticate"
    (snprintf len (str "Basic realm=\"" ++ realm ++ str "\""))

def authorizationField (req : RemapRequest) : Option Str :=
  match hashGet req.rrHdrfields (str "authorization") with
  | some ⟨[value]⟩ => some value
  | _ => none

def authBasicOk (env : Env) (req : RemapRequest) (rp : RemapPath) : Bool :=
  match authorizationField req with
  | none => false
  | some rrAuth => authCheckBasic env rrAuth rp = 1

def rrCheckAuth (env : Env) (req : RemapRequest) (rp : RemapPath) (res : RemapResult)
    : Result (RR × RemapResult) :=
  let challenge : Result (RR × RemapResult) := do
    let res ← setWwwauthHeader rp res
    return (.errUnauthorized, res)
  if rp.rpAuthType = .none ∧ rp.rpAuthAddrList = [] then
    .ok (.ok, res)
  else if rp.rpAuthType = .none then
    if authCheckAddress env req.rrAddr rp then
      .ok (.ok, res)
    else
      .ok (.errForbidden, res)
  else if rp.rpAuthAddrList = [] then
    if authBasicOk env req rp then
      .ok (.ok, res)
    else
      challenge
  else if rp.rpAuthSatisfy = .any then
    if authCheckAddress env req.rrAddr rp then
      .ok (.ok, res)
    else if !authBasicOk env req rp then
      challenge
    else
      .ok (.ok, res)
  else
    if !authCheckAddress env req.rrAddr rp then
      .ok (.errForbidden, res)
    else if !authBasicOk env req rp then
      challenge
    else
      .ok (.ok, res)

-- A parameter is given as the memory from its first byte on. It is matched in place, up to the equals sign.
def matchesParam (param : List UInt8) (hs : Hash Unit) : Result Bool :=
  go (hs.entries.map Prod.fst)
where
  go : List Str → Result Bool
    | [] => .ok false
    | p :: rest => do
      if ← strmatch param ((cstr param).takeWhile (· ≠ 61)).length p then
        return true
      else
        go rest

def keepParameter (rp : RemapPath) (param : List UInt8) : Result Bool := do
  let ignored ← (rp.rpIgnoreParams.map (matchesParam param)).getD (.ok false)
  if ignored then
    return false
  else
    (rp.rpWhitelistParams.map (matchesParam param)).getD (.ok true)

def keptParameters (rp : RemapPath) : List (List UInt8) → Result (List Str)
  | [] => .ok []
  | p :: rest => do
    let keep ← keepParameter rp p
    let kept ← keptParameters rp rest
    return if keep then cstr p :: kept else kept

def makeQuery (rp : RemapPath) (query : Str) : Result (Option Str) := do
  let q := cstr query
  let params ← keptParameters rp (strtokMem (str "&") q)
  let len := params.foldl (fun len p => len + p.length + 1) 0
  if len = 0 then
    return none
  else
    let ret := (qsortStr params).flatMap fun p => p ++ str "&"
    return some (ret.take (len - 1))

def rewrittenPath (rp : RemapPath) (path : Option Str) (pfxsz : Nat) : Option Str :=
  match rp.rpRewriteTarget, path with
  | some target, some path =>
    let blen := path.length - pfxsz + target.length + 1
    some (snprintf blen (target ++ path.drop pfxsz))
  | some target, none => some target
  | none, path => path

def remapRunAuthorized (env : Env) (req : RemapRequest) (rp : RemapPath) (pfxsz rnd : Nat)
    (res : RemapResult) : Result (RR × RemapResult) :=
  match rrCheckCors req rp res with
  | (.ok, res) =>
    match rrCheckAppRoot req rp res with
    | (.ok, res) => do
      let res := { res with rzUrlpath := rewrittenPath rp req.rrPath pfxsz }
      let query ← (req.rrQuery.map (makeQuery rp)).getD (.ok none)
      let res := { res with rzQuery := query }
      match rrCheckProto req rp res with
      | (.ok, res) =>
        if rp.rpAddrs.length = 0 then
          return (.errNoBackend, res)
        else
          return (.ok, { res with rzTarget := remapPathPickTarget env rp rnd })
      | (r, res) => return (r, res)
    | (r, res) => .ok (r, res)
  | (r, res) => .ok (r, res)

-- The comparison starts behind the first byte of the configured path.
def healthcheckMatches (db : RemapDb) (req : RemapRequest) : Result Bool :=
  match req.rrPath, db.rdHealthcheck with
  | some _, some [] => .error .outOfBounds
  | some path, some (_ :: healthcheck) => .ok (path == healthcheck)
  | _, _ => .ok false

def remapRun (env : Env) (db : RemapDb) (req : RemapRequest) (rnd : Nat)
    : Result (RR × RemapResult) := do
  if ← healthcheckMatches db req then
    return (.synthetic, { rzStatus := 200, rzStatusText := some (str "OK") })
  else
    match req.rrHost with
    | none => return (.errInvalidHost, {})
    | some host =>
      if host = [] then
        return (.errInvalidHost, {})
      else
        match remapDbGetHost db host with
        | none => return (.errNoHost, {})
        | some rh =>
          match remapHostFindPath env rh req.rrPath with
          | (none, _) => return (.errNoPath, { rzHost := some rh })
          | (some rp, pfxsz) =>
            match rrCheckTls req host rh rp { rzHost := some rh, rzPath := some rp } with
            | (.ok, res) =>
              match ← rrCheckAuth env req rp res with
              | (.ok, res) => remapRunAuthorized env req rp pfxsz rnd res
              | (r, res) => return (r, res)
            | (r, res) => return (r, res)
