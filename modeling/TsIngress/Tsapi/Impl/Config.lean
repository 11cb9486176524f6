import TsIngress.Basic
import TsIngress.Api.Impl.Types

/-!
This module contains the implementation of the plugin's own configuration: the configuration file, the service
account of a pod and the environment.
-/

structure LoadedConfig extends K8sConfig where
  coServer : Option Str
  coTlsCertfile : Option Str
  coTlsKeyfile : Option Str
  coTlsCafile : Option Str
  coTlsVerify : Bool
  coToken : Option Str
  coTls : Bool
  coRemap : Bool
  coXfp : Bool

structure Process where
  -- the content of a file that can be read
  fopen : Str → Option (List UInt8)
  -- is there such a file?
  stat : Str → Bool
  getenv : Str → Option Str
  tsConfigDirGet : Str

inductive OptionError where
  | expectedTrueOrFalse
  | expectedNamespaceAndName
  | unknownOption (opt : Str)
  deriving DecidableEq, Repr

inductive CfgError where
  | fopen (file : Str)
  | syntaxError (file : Str) (lineno : Nat)
  | option (file : Str) (lineno : Nat) (e : OptionError)
  | environment (name : Str) (e : OptionError)
  | mustSpecifyCertfile
  | mustSpecifyKeyfile
  | mustSpecifyServer
  deriving DecidableEq, Repr

def saTokenFile : Str := str "/var/run/secrets/kubernetes.io/serviceaccount/token"

def saCacertFile : Str := str "/var/run/secrets/kubernetes.io/serviceaccount/ca.crt"

-- One call of `fgets` with a buffer of `size` bytes: the bytes it stores in front of the terminator, and
-- what is left of the file. At the end of the file nothing is stored.
def fgets (size : Nat) (content : List UInt8) : Option (List UInt8 × List UInt8) :=
  if content = [] then
    none
  else
    let n := min (size - 1) ((content.takeWhile (· ≠ 10)).length + 1)
    some (content.take n, content.drop n)

def fgetsLines (size : Nat) (content : List UInt8) : List (List UInt8) :=
  go content.length content
where
  go : Nat → List UInt8 → List (List UInt8)
    | 0, _ => []
    | fuel + 1, content =>
      match fgets size content with
      | none => []
      | some (line, rest) => line :: go fuel rest

def cfgSetIngressClasses (cfg : LoadedConfig) (classes : Str) : LoadedConfig :=
  { cfg with coClasses := hashOfWords 11 (strtok (str " \t\r\n") classes) }

def k8sConfigNew : LoadedConfig :=
  let ret : LoadedConfig := {
    coClasses := hashNew 11
    coConfigmapNamespace := none
    coConfigmapName := none
    coServer := none
    coTlsCertfile := none
    coTlsKeyfile := none
    coTlsCafile := none
    coTlsVerify := true
    coToken := none
    coTls := true
    coRemap := true
    coXfp := true
  }
  cfgSetIngressClasses ret (str "trafficserver")

def cfgTrueOrFalse (value : Str) : Except OptionError Bool :=
  if value = str "true" then
    .ok true
  else if value = str "false" then
    .ok false
  else
    .error .expectedTrueOrFalse

def cfgSetConfigmap (cfg : LoadedConfig) (value : Str) : Except OptionError LoadedConfig :=
  match strcut 47 value with
  | none => .error .expectedNamespaceAndName
  | some (ns, name) => .ok { cfg with coConfigmapNamespace := some ns, coConfigmapName := some name }

def cfgSetOption (cfg : LoadedConfig) (opt value : Str) : Except OptionError LoadedConfig :=
  if opt = str "server" then
    .ok { cfg with coServer := some value }
  else if opt = str "token" then
    .ok { cfg with coToken := some value }
  else if opt = str "certfile" then
    .ok { cfg with coTlsCertfile := some value }
  else if opt = str "keyfile" then
    .ok { cfg with coTlsKeyfile := some value }
  else if opt = str "cafile" then
    .ok { cfg with coTlsCafile := some value }
  else if opt = str "tls" then do
    return { cfg with coTls := ← cfgTrueOrFalse value }
  else if opt = str "tls_verify" then do
    return { cfg with coTlsVerify := ← cfgTrueOrFalse value }
  else if opt = str "remap" then do
    return { cfg with coRemap := ← cfgTrueOrFalse value }
  else if opt = str "x_forwarded_proto" then do
    return { cfg with coXfp := ← cfgTrueOrFalse value }
  else if opt = str "ingress_classes" then
    .ok (cfgSetIngressClasses cfg value)
  else if opt = str "configmap" then
    cfgSetConfigmap cfg value
  else
    .error (.unknownOption opt)

-- The loop from the terminator of the line backwards, which stops in front of the line at the latest.
def cfgStripLine (line : Str) : Str :=
  (line.reverse.dropWhile fun c => c = 13 ∨ c = 10).reverse

def cfgLoadLine (file : Str) (cfg : LoadedConfig) (line : List UInt8 × Nat) : Except CfgError LoadedConfig :=
  let opt := (cfgStripLine (cstr line.1)).dropWhile isspace
  if opt.head? = some 35 ∨ opt = [] then
    .ok cfg
  else
    match strcut 58 opt with
    | none => .error (.syntaxError file line.2)
    | some (opt, value) =>
      match cfgSetOption cfg opt (value.dropWhile isspace) with
      | .error e => .error (.option file line.2 e)
      | .ok cfg => .ok cfg

def pathMax : Nat := 4096

def cfgLoadFile (ps : Process) (cfg : LoadedConfig) (file : Str) : Except CfgError LoadedConfig :=
  let file := if 47 ∈ file then file else snprintf (pathMax + 1) (ps.tsConfigDirGet ++ str "/" ++ file)
  match ps.fopen file with
  | none => .error (.fopen file)
  | some content => ((fgetsLines 1024 content).zipIdx 1).foldlM (cfgLoadLine file) cfg

-- Strip line ends off the token, the last byte first. In front of an empty line there is no byte of the
-- buffer.
def stripToken (line : Str) : Result Str :=
  go line.reverse
where
  go : Str → Result Str
    | [] => .error .outOfBounds
    | c :: rest => if c = 13 ∨ c = 10 then go rest else .ok (c :: rest).reverse

def loadServiceAccount (ps : Process) (cfg : LoadedConfig) : Result LoadedConfig :=
  match (ps.fopen saTokenFile).bind (fgets 2048) with
  | none => .ok cfg
  | some (line, _) => do
    let token ← stripToken (cstr line)
    let cfg := { cfg with coToken := some token }
    match ps.getenv (str "KUBERNETES_SERVICE_HOST"), ps.getenv (str "KUBERNETES_SERVICE_PORT") with
    | some host, some port =>
      return { cfg with coServer := some (snprintf 256 (str "https://" ++ host ++ str ":" ++ port)) }
    | _, _ => return cfg

def loadCacert (ps : Process) (cfg : LoadedConfig) : LoadedConfig :=
  if ps.stat saCacertFile then { cfg with coTlsCafile := some saCacertFile } else cfg

def fromEnv (ps : Process) (name : String) (assign : LoadedConfig → Str → Except OptionError LoadedConfig)
    (cfg : LoadedConfig) : Except CfgError LoadedConfig :=
  match ps.getenv (str name) with
  | none => .ok cfg
  | some value =>
    match assign cfg value with
    | .error e => .error (.environment (str name) e)
    | .ok cfg => .ok cfg

def loadEnvironment (ps : Process) (cfg : LoadedConfig) : Except CfgError LoadedConfig := do
  let cfg ← fromEnv ps "TS_SERVER" (fun cfg s => .ok { cfg with coServer := some s }) cfg
  let cfg ← fromEnv ps "TS_CAFILE" (fun cfg s => .ok { cfg with coTlsCafile := some s }) cfg
  let cfg ← fromEnv ps "TS_CERTFILE" (fun cfg s => .ok { cfg with coTlsCertfile := some s }) cfg
  let cfg ← fromEnv ps "TS_KEYFILE" (fun cfg s => .ok { cfg with coTlsKeyfile := some s }) cfg
  let cfg ← fromEnv ps "TS_TOKEN" (fun cfg s => .ok { cfg with coToken := some s }) cfg
  let cfg ← fromEnv ps "TS_TLS" (fun cfg s => return { cfg with coTls := ← cfgTrueOrFalse s }) cfg
  let cfg ← fromEnv ps "TS_TLS_VERIFY" (fun cfg s => return { cfg with coTlsVerify := ← cfgTrueOrFalse s }) cfg
  let cfg ← fromEnv ps "TS_REMAP" (fun cfg s => return { cfg with coRemap := ← cfgTrueOrFalse s }) cfg
  let cfg ← fromEnv ps "TS_CONFIGMAP" cfgSetConfigmap cfg
  fromEnv ps "TS_INGRESS_CLASSES" (fun cfg s => .ok (cfgSetIngressClasses cfg s)) cfg

def checkCredentials (cfg : LoadedConfig) : Except CfgError LoadedConfig :=
  let cfg := if cfg.coTlsKeyfile.isSome then { cfg with coToken := none } else cfg
  if cfg.coTlsKeyfile.isSome ∧ cfg.coTlsCertfile.isNone then
    .error .mustSpecifyCertfile
  else if cfg.coTlsCertfile.isSome ∧ cfg.coTlsKeyfile.isNone then
    .error .mustSpecifyKeyfile
  else if cfg.coServer.isNone then
    .error .mustSpecifyServer
  else
    .ok cfg

def k8sConfigLoadFile (ps : Process) (file : Option Str) : Except CfgError LoadedConfig :=
  match file with
  | none => .ok k8sConfigNew
  | some file => cfgLoadFile ps k8sConfigNew file

def k8sConfigLoad (ps : Process) (file : Option Str) : Result (Except CfgError LoadedConfig) :=
  match k8sConfigLoadFile ps file with
  | .error e => .ok (.error e)
  | .ok cfg => do
    let cfg ← loadServiceAccount ps cfg
    return (loadEnvironment ps (loadCacert ps cfg)).bind checkCredentials
