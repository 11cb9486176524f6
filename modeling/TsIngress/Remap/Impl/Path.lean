import TsIngress.Remap.Impl.Types
import TsIngress.Api.Impl.Namespace
import TsIngress.Util.Impl.Base64

/-!
This module contains `remap/remap_path.c`: the paths of a host and their configuration from the
annotations of an Ingress.
-/

def aIngress (name : String) : Str :=
  str "ingress.kubernetes.io/" ++ str name

def aTorchbox (name : String) : Str :=
  str "ingress.torchbox.com/" ++ str name

def inClass : Str := str "kubernetes.io/ingress.class"
def inSecureBackends : Str := aIngress "secure-backends"
def inSslRedirect : Str := aIngress "ssl-redirect"
def inForceSslRedirect : Str := aIngress "force-ssl-redirect"
def inSslPassthrough : Str := aIngress "ssl-passthrough"
def inTlsMinimumVersion : Str := aIngress "tls-minimum-version"
def inAppRoot : Str := aIngress "app-root"
def inRewriteTarget : Str := aIngress "rewrite-target"
def inAuthType : Str := aIngress "auth-type"
def inAuthRealm : Str := aIngress "auth-realm"
def inAuthSecret : Str := aIngress "auth-secret"
def inAuthSatisfy : Str := aIngress "auth-satisfy"
def inWhitelistSourceRange : Str := aIngress "whitelist-source-range"
def inCacheEnable : Str := aIngress "cache-enable"
def inCacheGeneration : Str := aIngress "cache-generation"
def inCacheIgnoreParams : Str := aIngress "cache-ignore-query-params"
def inCacheWhitelistParams : Str := aIngress "cache-whitelist-query-params"
def inCacheIgnoreCookies : Str := aIngress "cache-ignore-cookies"
def inCacheWhitelistCookies : Str := aIngress "cache-whitelist-cookies"
def inHstsIncludeSubdomains : Str := aIngress "hsts-include-subdomains"
def inHstsMaxAge : Str := aIngress "hsts-max-age"
def inFollowRedirects : Str := aIngress "follow-redirects"
def inPreserveHost : Str := aIngress "preserve-host"
def inReadResponseTimeout : Str := aIngress "read-response-timeout"
def inEnableCors : Str := aIngress "enable-cors"
def inCorsOrigins : Str := aIngress "cors-origins"
def inCorsMaxAge : Str := aIngress "cors-max-age"
def inCorsCredentials : Str := aIngress "cors-credentials"
def inCorsHeaders : Str := aIngress "cors-headers"
def inCorsMethods : Str := aIngress "cors-methods"
def inCompressEnable : Str := aIngress "compress-enable"
def inCompressTypes : Str := aIngress "compress-types"
def inServerPush : Str := aIngress "server-push"
def inHttp2Enable : Str := aIngress "http2-enable"
def inDebugLog : Str := aTorchbox "debug-log"

def remapPathDefault : RemapPath where
  rpRegex := none
  rpPreserveHost := true
  rpServerPush := true
  rpCorsOrigins := hashOfWords 127 [str "*"]
  rpCache := true
  rpIgnoreCookies := some (hashNew 127)
  rpCompress := true
  rpCompressTypes := hashOfWords 127 [
    str "application/atom+xml",
    str "application/javascript",
    str "aplication/x-javascript",
    str "application/json",
    str "application/rss+xml",
    str "application/vnd.ms-fontobject",
    str "application/x-font-ttf",
    str "application/x-web-app-manifest+json",
    str "application/xml",
    str "font/opentype",
    str "image/svg+xml",
    str "image/x-icon",
    str "text/css",
    str "text/plain",
    str "text/x-component"]

-- The leading slash of an Ingress path becomes the anchor of its pattern.
def remapPathPattern (path : Str) : Str :=
  94 :: path.tail

def remapPathNew (env : Env) (path : Option Str) : Option RemapPath :=
  match path with
  | none => some remapPathDefault
  | some path =>
    if path.head? ≠ some 47 then
      none
    else if env.regcomp (remapPathPattern path) then
      some { remapPathDefault with rpRegex := some (remapPathPattern path) }
    else
      none

def remapPathAddAddress (rp : RemapPath) (host : Str) (port : Int) : RemapPath :=
  { rp with rpAddrs := rp.rpAddrs ++ [⟨host, port⟩] }

def remapAuthAddr (env : Env) (ip : Str) (pfxlen : Option Int) : Option RemapAuthAddr :=
  match env.inetPton6 ip with
  | some addr => some ⟨.v6 addr, pfxlen.getD 128⟩
  | none =>
    match env.inetPton4 ip with
    | some addr => some ⟨.v4 addr, pfxlen.getD 32⟩
    | none => none

def remapPathGetAddress (env : Env) (saddr : Str) : Option RemapAuthAddr :=
  match strcut 47 saddr with
  | none => remapAuthAddr env saddr none
  | some (ip, p) => remapAuthAddr env ip (some (atoi p))

def remapPathPushAddress (env : Env) (list : List RemapAuthAddr) (saddr : Str) : List RemapAuthAddr :=
  match remapPathGetAddress env saddr with
  | some entry => entry :: list
  | none => list

def remapPathGetAddresses (env : Env) (s : Str) : List RemapAuthAddr :=
  (strtok (str ",") s).foldl (remapPathPushAddress env) []

-- Strip line ends off a password, the last byte first. Behind an empty password stands the terminator
-- that was written over the colon, which `strchr` finds in every string: the loop does not end.
def stripNewlines (password : Str) : Result Str :=
  go password.reverse
where
  go : Str → Result Str
    | [] => .error .endless
    | c :: rest => if c = 13 ∨ c = 10 then go rest else .ok (c :: rest).reverse

def remapPathAddUser (users : Hash Str) (entry : Str) : Result (Hash Str) :=
  match strcut 58 entry with
  | none => .ok users
  | some (user, rest) => do
    let password := ((strcut 58 rest).map Prod.fst).getD rest
    let password ← stripNewlines password
    return hashSet users user password

def remapPathAddUsers (users : Hash Str) (secret : Secret) : Result (Hash Str) :=
  match hashGet secret.seData (str "auth") with
  | none => .ok users
  | some authdata =>
    let (n, buf) := base64Decode authdata
    if n = -1 then
      .ok users
    else
      (strsep (str "\r\n") (cstr buf)).foldlM remapPathAddUser users

def annotationWords (value : Str) : Hash Unit :=
  hashOfWords 127 (strtok (str " \t") value)

def remapPathAnnotateOne (env : Env) (ns : Namespace) (rp : RemapPath) (key value : Str)
    : Result RemapPath :=
  if key = inCacheEnable then
    .ok { rp with rpCache := truefalse value }
  else if key = inCacheGeneration then
    .ok { rp with rpCacheGen := atoi value }
  else if key = inCacheIgnoreParams then
    .ok { rp with rpIgnoreParams := some (annotationWords value) }
  else if key = inCacheWhitelistParams then
    .ok { rp with rpWhitelistParams := some (annotationWords value) }
  else if key = inCacheIgnoreCookies then
    .ok { rp with rpIgnoreCookies := some (annotationWords value) }
  else if key = inCacheWhitelistCookies then
    .ok { rp with rpWhitelistCookies := some (annotationWords value) }
  else if key = inCompressTypes then
    .ok { rp with rpCompressTypes := annotationWords value }
  else if key = inCompressEnable then
    .ok { rp with rpCompress := truefalse value }
  else if key = inFollowRedirects then
    .ok { rp with rpFollowRedirects := truefalse value }
  else if key = inServerPush then
    .ok { rp with rpServerPush := truefalse value }
  else if key = inSecureBackends then
    .ok { rp with rpSecureBackends := truefalse value }
  else if key = inDebugLog then
    .ok { rp with rpDebugLog := truefalse value }
  else if key = inSslRedirect then
    .ok { rp with rpNoSslRedirect := !truefalse value }
  else if key = inForceSslRedirect then
    .ok { rp with rpForceSslRedirect := truefalse value }
  else if key = inPreserveHost then
    .ok { rp with rpPreserveHost := truefalse value }
  else if key = inAppRoot then
    .ok { rp with rpAppRoot := some value }
  else if key = inRewriteTarget ∧ value.head? = some 47 then
    .ok { rp with rpRewriteTarget := some value.tail }
  else if key = inReadResponseTimeout then
    .ok { rp with rpReadTimeout := atoi value }
  else if key = inEnableCors then
    .ok { rp with rpEnableCors := truefalse value }
  else if key = inCorsOrigins then
    let origins := hashOfWords 1 (strtok (str " \t\r\n") value)
    .ok { rp with rpCorsOrigins := origins, rpEnableCors := true }
  else if key = inCorsMaxAge then
    .ok { rp with rpCorsMaxAge := atoi value }
  else if key = inCorsHeaders then
    .ok { rp with rpCorsHeaders := some value }
  else if key = inCorsMethods then
    .ok { rp with rpCorsMethods := some value }
  else if key = inCorsCredentials then
    .ok { rp with rpCorsCreds := truefalse value }
  else if key = inAuthType then
    if value = str "basic" then
      .ok { rp with rpAuthType := .basic }
    else if value = str "digest" then
      .ok { rp with rpAuthType := .digest }
    else
      .ok rp
  else if key = inAuthRealm then
    .ok { rp with rpAuthRealm := some value }
  else if key = inAuthSecret then
    match namespaceGetSecret ns value with
    | none => .ok rp
    | some se => do
      let users ← remapPathAddUsers (hashNew 127) se
      return { rp with rpUsers := some users }
  else if key = inAuthSatisfy then
    if value = str "any" then
      .ok { rp with rpAuthSatisfy := .any }
    else
      .ok { rp with rpAuthSatisfy := .all }
  else if key = inWhitelistSourceRange then
    .ok { rp with rpAuthAddrList := remapPathGetAddresses env value }
  else
    .ok rp

def remapPathAnnotate (env : Env) (ns : Namespace) (rp : RemapPath) (annotations : Hash Str)
    : Result RemapPath :=
  annotations.entries.foldlM (fun rp e => remapPathAnnotateOne env ns rp e.1 e.2) rp

-- `rnd` is what `rand()` returns.
def remapPathPickTarget (env : Env) (rp : RemapPath) (rnd : Nat) : Option RemapTarget :=
  rp.rpAddrs[rnd / (env.randMax / rp.rpAddrs.length + 1)]?
