import TsIngress.Remap.Impl.Path
import TsIngress.Api.Impl.Cluster

/-!
This module contains `remap/remap_host.c`. A pointer to a path of a host is its index.
-/

def remapHostNew : RemapHost where
  rhPaths := [remapPathDefault]
  rhCtx := none
  rhHstsSubdomains := false
  rhHttp2 := false
  rhTlsPassthrough := false
  rhHstsMaxAge := 0
  rhTlsVersion := 0
  rhPaths_ne_nil := by simp

def remapHostFindPath (env : Env) (rh : RemapHost) (path : Option Str) : Option RemapPath × Nat :=
  match path with
  | none => (rh.rhPaths.head?, 0)
  | some path => go path rh.rhPaths.tail
where
  go (path : Str) : List RemapPath → Option RemapPath × Nat
    | [] => (rh.rhPaths.head?, 0)
    | rp :: rest =>
      match rp.rpRegex.bind fun pat => env.regexec pat path with
      | some m => (some rp, m.2 - m.1)
      | none => go path rest

def remapHostNewPath (env : Env) (rh : RemapHost) (path : Option Str) : Option RemapHost :=
  match remapPathNew env path with
  | none => none
  | some rp =>
    some { rh with rhPaths := rh.rhPaths ++ [rp], rhPaths_ne_nil := by simp }

def RemapHost.updatePath (rh : RemapHost) (i : Nat) (f : RemapPath → Result RemapPath)
    : Result RemapHost :=
  match rh.rhPaths[i]? with
  | none => .error .outOfBounds
  | some rp => do
    let rp ← f rp
    return { rh with rhPaths := rh.rhPaths.set i rp, rhPaths_ne_nil := by simp [rh.rhPaths_ne_nil] }

def remapHostAnnotate (rh : RemapHost) (cs : Cluster) (annotations : Hash Str) : RemapHost :=
  { rh with
    rhHstsMaxAge :=
      match hashGet annotations inHstsMaxAge with
      | some s => atoi s
      | none => cs.csConfig.ccHstsMaxAge
    rhHstsSubdomains :=
      match hashGet annotations inHstsIncludeSubdomains with
      | some s => truefalse s
      | none => cs.csConfig.ccHstsSubdomains
    rhHttp2 :=
      match hashGet annotations inHttp2Enable with
      | some s => truefalse s
      | none => cs.csConfig.ccHttp2
    rhTlsVersion :=
      match hashGet annotations inTlsMinimumVersion with
      | some s => (tlsVersionValue s).getD rh.rhTlsVersion
      | none => cs.csConfig.ccTlsMinimumVersion
    rhTlsPassthrough :=
      match hashGet annotations inSslPassthrough with
      | some s => truefalse s
      | none => rh.rhTlsPassthrough }

-- Looking for the namespace of the certificate creates the namespace when it is not there.
def remapHostAttachDefaultTls (env : Env) (rh : RemapHost) (cs : Cluster) (host : Str)
    : RemapHost × Cluster :=
  match clusterGetCertForHostname cs host with
  | none => (rh, cs)
  | some crt =>
    let (ns, cs) := clusterGetNamespace cs crt.crNamespace
    match namespaceGetSecret ns crt.crName with
    | none => (rh, cs)
    | some srt => ({ rh with rhCtx := secretMakeSslCtx env srt }, cs)
