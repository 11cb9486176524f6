import TsIngress.Remap.Impl.Host
import TsIngress.Api.Impl.Service

/-!
This module contains `remap/remap_build.c`. Looking for the namespace of a default certificate may add
a namespace to the cluster, so the functions pass the cluster on together with the database.
-/

def remapDbNew (cfg : K8sConfig) : RemapDb where
  rdConfig := cfg
  rdHealthcheck := none
  rdHosts := hashNew 4093

def remapDbGetHost (db : RemapDb) (hostname : Str) : Option RemapHost :=
  hashGet db.rdHosts hostname

def remapDbGetOrCreateHost (db : RemapDb) (hostname : Str) : RemapHost × RemapDb :=
  match remapDbGetHost db hostname with
  | some rh => (rh, db)
  | none => (remapHostNew, { db with rdHosts := hashSet db.rdHosts hostname remapHostNew })

def RemapDb.setHost (db : RemapDb) (hostname : Str) (rh : RemapHost) : RemapDb :=
  { db with rdHosts := db.rdHosts.modify hostname fun _ => rh }

def svTypeExternalName : Str := str "ExternalName"

def addSubset (port : ServicePort) (rp : RemapPath) (es : EndpointsSubset) : Result RemapPath :=
  match hashGet es.esPorts port.spName with
  | none => .ok rp
  | some epp =>
    es.esAddrs.foldlM
      (fun rp addr => do
        let ip ← deref addr.eaIp
        return remapPathAddAddress rp ip epp.etPort)
      rp

def buildAddEndpoints (ns : Namespace) (rp : RemapPath) (svc : Service) (portName : Option Str)
    : Result RemapPath := do
  let svType ← deref svc.svType
  if svType = svTypeExternalName then
    let portName ← deref portName
    let externalName ← deref svc.svExternalName
    return remapPathAddAddress rp externalName (atoi portName)
  else
    match ← serviceFindPort svc portName .tcp with
    | none => return rp
    | some port =>
      match namespaceGetEndpoints ns svc.svName with
      | none => return rp
      | some eps => eps.epSubsets.foldlM (addSubset port) rp

def buildIngressPath (env : Env) (cs : Cluster) (ns : Namespace) (ing : Ingress) (rh : RemapHost)
    (path : IngressPath) : Result RemapHost := do
  let serviceName ← deref path.ipServiceName
  match namespaceGetService ns serviceName with
  | none => return rh
  | some svc =>
    let configure (rp : RemapPath) : Result RemapPath := do
      let rp ← remapPathAnnotate env ns rp ing.inAnnotations
      buildAddEndpoints ns rp svc path.ipServicePort
    match path.ipPath with
    | none => (remapHostAnnotate rh cs ing.inAnnotations).updatePath 0 configure
    | some ipPath =>
      match remapHostNewPath env rh (some ipPath) with
      | none => return rh
      | some rh => rh.updatePath (rh.rhPaths.length - 1) configure

def buildIngressRule (env : Env) (ns : Namespace) (ing : Ingress) (st : RemapDb × Cluster)
    (rule : IngressRule) : Result (RemapDb × Cluster) :=
  let (db, cs) := st
  match rule.irHost with
  | none => .ok (db, cs)
  | some host =>
    if !clusterDomainForNs cs host ns.nsName then
      .ok (db, cs)
    else do
      let (rh, db) := remapDbGetOrCreateHost db host
      let (rh, cs) := remapHostAttachDefaultTls env rh cs host
      let rh ← rule.irPaths.foldlM (buildIngressPath env cs ns ing) rh
      return (db.setHost host rh, cs)

def buildTlsHosts (env : Env) (cs : Cluster) (ns : Namespace) (secret : Secret) (db : RemapDb)
    (hosts : List Str) : RemapDb :=
  match hosts with
  | [] => db
  | hostname :: rest =>
    if !clusterDomainForNs cs hostname ns.nsName then
      db
    else
      let (rh, db) := remapDbGetOrCreateHost db hostname
      let db := db.setHost hostname { rh with rhCtx := secretMakeSslCtx env secret }
      buildTlsHosts env cs ns secret db rest

def buildIngressTls (env : Env) (ns : Namespace) (st : RemapDb × Cluster) (itls : IngressTls)
    : Result (RemapDb × Cluster) := do
  let (db, cs) := st
  let secretName ← deref itls.itSecretName
  match namespaceGetSecret ns secretName with
  | none => return (db, cs)
  | some secret => return (buildTlsHosts env cs ns secret db itls.itHosts, cs)

def classHandled (cfg : K8sConfig) (ing : Ingress) : Bool :=
  match hashGet ing.inAnnotations inClass with
  | none => true
  | some cls => hashPresent cfg.coClasses cls

def buildIngress (env : Env) (ns : Namespace) (st : RemapDb × Cluster) (ing : Ingress)
    : Result (RemapDb × Cluster) :=
  if !classHandled st.1.rdConfig ing then
    .ok st
  else do
    let st ← ing.inRules.foldlM (buildIngressRule env ns ing) st
    ing.inTls.foldlM (buildIngressTls env ns) st

def buildNamespace (env : Env) (st : RemapDb × Cluster) (ns : Namespace)
    : Result (RemapDb × Cluster) :=
  (hashValues ns.nsIngresses).foldlM (buildIngress env ns) st

/--
The loop over the namespaces runs while the table may grow. A bucket is entered by its number, with what
it holds then, and is walked to its end.
-/
def remapDbFromCluster (env : Env) (cfg : K8sConfig) (cluster : Cluster)
    : Result (RemapDb × Cluster) := do
  let (db, cluster) ← (List.range cluster.csNamespaces.size).foldlM
    (fun st i => ((st.2.csNamespaces.bucketAt i).map Prod.snd).foldlM (buildNamespace env) st)
    (remapDbNew cfg, cluster)
  return ({ db with rdHealthcheck := some cluster.csConfig.ccHealthcheck }, cluster)
