import TsIngress.Api.Impl.Cluster
import TsIngress.Api.Impl.Make
import TsIngress.Api.Impl.Namespace
import TsIngress.BasicLemmas

/-!
This module contains `api/watcher.c`: the lists that are fetched, the events that are watched and the
exchange of the live cluster. What curl does is an argument.
-/

structure FetcherCtx where
  wtCluster : Cluster
  changed : Bool

def isControllerMap (cfg : K8sConfig) (ns name : Str) : Bool :=
  match cfg.coConfigmapNamespace, cfg.coConfigmapName with
  | some cmNamespace, some cmName => name == cmName && ns == cmNamespace
  | _, _ => false

def feWatchObject (made : Result (Option α)) (put : Namespace → α → Namespace)
    (del : Namespace → Str → Namespace) (ns name : Str) (deleted : Bool) (fe : FetcherCtx)
    : Result FetcherCtx := do
  if deleted then
    return ⟨fe.wtCluster.modifyNamespace ns (del · name), true⟩
  else
    match ← made with
    | none => return { fe with changed := true }
    | some obj => return ⟨fe.wtCluster.modifyNamespace ns (put · obj), true⟩

def feWatchConfigmap (cfg : K8sConfig) (ns name : Str) (deleted : Bool) (o : Json) (fe : FetcherCtx)
    : FetcherCtx :=
  if isControllerMap cfg ns name then
    if deleted then
      ⟨clusterSetConfigmap fe.wtCluster none, true⟩
    else
      match configmapMake o with
      | none => { fe with changed := true }
      | some cm => ⟨clusterSetConfigmap fe.wtCluster (some cm), true⟩
  else
    fe

-- Endpoints that did not change are not put again.
def feWatchEndpoints (ns name : Str) (deleted : Bool) (o : Json) (fe : FetcherCtx) : FetcherCtx :=
  if deleted then
    ⟨fe.wtCluster.modifyNamespace ns (namespaceDelEndpoints · name), true⟩
  else
    match endpointsMake o with
    | none => fe
    | some eps =>
      let put : FetcherCtx := ⟨fe.wtCluster.modifyNamespace ns (namespacePutEndpoints · eps), true⟩
      match namespaceGetEndpoints (clusterGetNamespace fe.wtCluster ns).1 name with
      | none => put
      | some old => if endpointsEqual eps old then fe else put

def feWatchLine (env : Env) (cfg : K8sConfig) (fe : FetcherCtx) (line : Str) : Result FetcherCtx :=
  match env.jsonTokenerParse line with
  | none => return fe
  | some obj =>
    match jsonStringMember obj "type", jsonObjectMember obj "object" with
    | some stype, some o =>
      let deleted := stype == str "DELETED"
      match jsonStringMember o "kind", jsonObjectMember o "metadata" with
      | some skind, some metadata =>
        match jsonStringMember metadata "namespace", jsonStringMember metadata "name" with
        | some ns, some name =>
          let fe := { fe with wtCluster := (clusterGetNamespace fe.wtCluster ns).2 }
          if skind = str "Ingress" then
            feWatchObject (ingressMake env o) namespacePutIngress namespaceDelIngress ns name deleted fe
          else if skind = str "Service" then
            feWatchObject (serviceMake env o) namespacePutService namespaceDelService ns name deleted fe
          else if skind = str "Secret" then
            feWatchObject (.ok (secretMake o)) namespacePutSecret namespaceDelSecret ns name deleted fe
          else if skind = str "ConfigMap" then
            return feWatchConfigmap cfg ns name deleted o fe
          else if skind = str "Endpoints" then
            return feWatchEndpoints ns name deleted o fe
          else
            return fe
        | _, _ => return fe
      | _, _ => return fe
    | _, _ => return fe

structure WatchBuf (σ : Type) where
  buf : Str
  st : σ

def fetcherWatchMake (st : σ) : WatchBuf σ :=
  ⟨[], st⟩

/--
Take what curl has read into the buffer and handle the complete lines in it. A line is handed over as
a pointer to its first byte, with a NUL in the place of its newline.
-/
def feWatchRead (line : σ → Str → Result σ) (data : Str) (fe : WatchBuf σ) : Result (Nat × WatchBuf σ) :=
  if data.length = 0 then
    return (0, fe)
  else do
    let fe ← go (fe.buf ++ data) fe.st
    return (data.length, fe)
where
  go (buf : Str) (st : σ) : Result (WatchBuf σ) :=
    match _hcut : strcut 10 buf with
    | none => return ⟨buf, st⟩
    | some (s, rest) => do
      let st ← line st s
      go rest st
  termination_by buf.length
  decreasing_by exact length_lt_of_strcut _hcut

-- The parser takes the line for a C string.
def feWatchLineAt (env : Env) (cfg : K8sConfig) (fe : FetcherCtx) (line : Str) : Result FetcherCtx :=
  feWatchLine env cfg fe (cstr line)

-- The lists go to a cluster of their own, the configuration to the live one.
structure Fetch where
  live : Cluster
  new : Cluster

def fetcherPutItem (made : Result (Option α)) (put : Namespace → α → Namespace) (ns : Str) (st : Fetch)
    : Result Fetch := do
  match ← made with
  | none => return st
  | some obj => return { st with new := st.new.modifyNamespace ns (put · obj) }

def fetcherSetConfigmap (cfg : K8sConfig) (item : Json) (st : Fetch) : Fetch :=
  match configmapMake item with
  | none => st
  | some cm =>
    if isControllerMap cfg cm.cmNamespace cm.cmName then
      { st with live := clusterSetConfigmap st.live (some cm) }
    else
      st

def fetcherProcessItem (env : Env) (cfg : K8sConfig) (kind : Str) (st : Fetch) (item : Json)
    : Result Fetch :=
  match (jsonObjectMember item "metadata").bind (jsonStringMember · "namespace") with
  | none => return st
  | some ns =>
    let st := { st with new := (clusterGetNamespace st.new ns).2 }
    if kind = str "IngressList" then
      fetcherPutItem (ingressMake env item) namespacePutIngress ns st
    else if kind = str "ServiceList" then
      fetcherPutItem (serviceMake env item) namespacePutService ns st
    else if kind = str "SecretList" then
      fetcherPutItem (.ok (secretMake item)) namespacePutSecret ns st
    else if kind = str "EndpointsList" then
      fetcherPutItem (.ok (endpointsMake item)) namespacePutEndpoints ns st
    else if kind = str "ConfigMapList" then
      return fetcherSetConfigmap cfg item st
    else
      return st

inductive Resource where
  | services
  | endpoints
  | secrets
  | configmaps
  | ingresses
  deriving DecidableEq, Repr

def resources : List Resource :=
  [.services, .endpoints, .secrets, .configmaps, .ingresses]

structure Resync where
  fetch : Fetch
  version : Resource → Option Str

-- A body without a byte leaves the buffer unset, any other is read up to its first NUL.
def fetcherProcess (env : Env) (cfg : K8sConfig) (resource : Resource) (body : Str) (st : Resync)
    : Result Resync :=
  if body.isEmpty then
    return st
  else
    match env.jsonTokenerParse (body.takeWhile (· ≠ 0)) with
    | none => return st
    | some obj =>
      match jsonArrayMember obj "items",
          (jsonObjectMember obj "metadata").bind (jsonStringMember · "resourceVersion") with
      | some items, some rversion =>
        let version := Function.update st.version resource (some rversion)
        match jsonStringMember obj "kind" with
        | none => return { st with version := version }
        | some skind => do
          let fetch ← items.foldlM (fetcherProcessItem env cfg skind) st.fetch
          return ⟨fetch, version⟩
      | _, _ => return st

structure Completion where
  resource : Resource
  body : Option Str

structure GetAllResult where
  ret : Int
  wtCluster : Cluster
  version : Resource → Option Str
  callback : Bool

-- The messages are read until one of them is about a failure. The namespaces are exchanged if none is.
def fetcherGetAll (env : Env) (cfg : K8sConfig) (cluster : Cluster) (version : Resource → Option Str)
    (msgs : List Completion) : Result GetAllResult :=
  go msgs ⟨⟨cluster, clusterMake⟩, version⟩
where
  go : List Completion → Resync → Result GetAllResult
    | [], st =>
      return ⟨0, { st.fetch.live with csNamespaces := st.fetch.new.csNamespaces }, st.version, true⟩
    | msg :: msgs, st =>
      match msg.body with
      | none => return ⟨-1, st.fetch.live, st.version, false⟩
      | some body => do
        let st ← fetcherProcess env cfg msg.resource body st
        go msgs st
