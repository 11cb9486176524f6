import TsIngress.Api.Impl.Namespace

/-!
This module contains the cluster wide configuration of `api/cluster.c`: the defaults that a ConfigMap
overrides, the matching of domains and the domain access list.
-/

def tlsVersionValue (s : Str) : Option Int :=
  if s = str "1.0" then
    some inTlsVersion10Value
  else if s = str "1.1" then
    some inTlsVersion11Value
  else if s = str "1.2" then
    some inTlsVersion12Value
  else
    none

theorem tlsVersionValue_legal {s : Str} {v : Int} (h : tlsVersionValue s = some v)
    : TlsVersionLegal v := by
  unfold tlsVersionValue at h
  split at h
  . simp [TlsVersionLegal, ← Option.some.inj h]
  . split at h
    . simp [TlsVersionLegal, ← Option.some.inj h]
    . split at h
      . simp [TlsVersionLegal, ← Option.some.inj h]
      . simp at h

def clusterConfigNew : ClusterConfig where
  ccTlsMinimumVersion := inTlsVersion10Value
  ccHstsMaxAge := 0
  ccHstsSubdomains := false
  ccHttp2 := true
  ccHealthcheck := str "/__trafficserver_alive"
  ccDomains := []
  ccCerts := []
  tlsVersion_legal := .inl rfl

def clusterMake : Cluster where
  csNamespaces := hashNew 127
  csConfig := clusterConfigNew

def clusterConfigAddCerts (cc : ClusterConfig) (certs : Str) : ClusterConfig :=
  (strsep (str " \t,") certs).foldl addEntry cc
where
  addEntry (cc : ClusterConfig) (p : Str) : ClusterConfig :=
    match strcut 58 p with
    | none => cc
    | some (doms, cert) =>
      match strcut 47 cert with
      | none => cc
      | some (certns, certname) =>
        let crts := (strsep (str ",") doms).map fun dom => ⟨dom, certns, certname⟩
        { cc with ccCerts := cc.ccCerts ++ crts }

def clusterConfigAddDomains (cc : ClusterConfig) (list : Str) : ClusterConfig :=
  (strsep (str " \t\n\r") list).foldl addEntry cc
where
  addEntry (cc : ClusterConfig) (q : Str) : ClusterConfig :=
    match strcut 58 q with
    | none => cc
    | some (dom, nslist) =>
      let cdl := ⟨dom, hashOfWords 13 (strsep (str ",") nslist)⟩
      { cc with ccDomains := cc.ccDomains ++ [cdl] }

def ClusterConfig.setTlsMinimumVersion (cc : ClusterConfig) (s : Str) : ClusterConfig :=
  match h : tlsVersionValue s with
  | none => cc
  | some v => { cc with ccTlsMinimumVersion := v, tlsVersion_legal := tlsVersionValue_legal h }

def ConfigMap.option (cm : ConfigMap) (key : Str) (f : ClusterConfig → Str → ClusterConfig)
    (cc : ClusterConfig) : ClusterConfig :=
  match hashGet cm.cmData key with
  | none => cc
  | some s => f cc s

def clusterConfigOf (cm : ConfigMap) : ClusterConfig :=
  let cc := clusterConfigNew
  let cc := cm.option (str "hsts-max-age") (fun cc s => { cc with ccHstsMaxAge := atoi s }) cc
  let cc := cm.option (str "hsts-include-subdomains")
    (fun cc s => { cc with ccHstsSubdomains := truefalse s }) cc
  let cc := cm.option (str "http2-enable") (fun cc s => { cc with ccHttp2 := truefalse s }) cc
  let cc := cm.option (str "tls-minimum-version") ClusterConfig.setTlsMinimumVersion cc
  let cc := cm.option (str "tls-certificates") clusterConfigAddCerts cc
  let cc := cm.option (str "healthcheck-path") setHealthcheck cc
  cm.option (str "domain-access-list") clusterConfigAddDomains cc
where
  -- the test looks at the path that is being replaced
  setHealthcheck (cc : ClusterConfig) (s : Str) : ClusterConfig :=
    if cc.ccHealthcheck.head? ≠ some 47 then
      cc
    else
      { cc with ccHealthcheck := s }

def clusterSetConfigmap (cs : Cluster) (cm : Option ConfigMap) : Cluster :=
  match cm with
  | none => { cs with csConfig := clusterConfigNew }
  | some cm => { cs with csConfig := clusterConfigOf cm }

def domainMatch (pat s : Str) : Bool :=
  if pat = str "*" then
    true
  else if s.length < 3 || pat.length < 3 then
    false
  else
    match pat with
    | 42 :: 46 :: d =>
      match strcut 46 s with
      | none => false
      | some (_, dc) => d == dc
    | 42 :: d =>
      if d = s then
        true
      else
        match strcut 46 s with
        | none => false
        | some (_, dc) => d == dc
    | pat => pat == s

def clusterGetCertForHostname (cs : Cluster) (host : Str) : Option ClusterCert :=
  cs.csConfig.ccCerts.find? fun crt => domainMatch crt.crDomain host

def ClusterDomain.covers (cd : ClusterDomain) (dom : Str) : Bool :=
  cd.daDomain == str "*" || domainMatch cd.daDomain dom

def ClusterDomain.admits (cd : ClusterDomain) (ns : Str) : Bool :=
  hashPresent cd.daNamespaces (str "*") || hashPresent cd.daNamespaces ns

def clusterDomainForNs (cs : Cluster) (dom ns : Str) : Bool :=
  if cs.csConfig.ccDomains.isEmpty then true else go cs.csConfig.ccDomains
where
  go : List ClusterDomain → Bool
    | [] => false
    | cd :: rest =>
      if cd.covers dom then
        if cd.admits ns then true else go rest
      else
        go rest
