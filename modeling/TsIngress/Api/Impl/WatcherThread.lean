import TsIngress.Api.Impl.Watcher

/-!
This module contains the loops of `api/watcher.c`: `fetcher_watch` and the thread around it. What curl and the
clock do is an argument, and so is the callback of the cluster.
-/

def resyncInterval : Int := 300

def Resource.url : Resource → Str
  | .services => str "/api/v1/services"
  | .endpoints => str "/api/v1/endpoints"
  | .secrets => str "/api/v1/secrets"
  | .configmaps => str "/api/v1/configmaps"
  | .ingresses => str "/apis/extensions/v1beta1/ingresses"

def fetcherWatchUrl (server : Str) (resource : Resource) (version : Str) : Str :=
  let urllen := server.length + resource.url.length + version.length
    + ((str "?watch=true&resourceVersion=").length + 1)
  snprintf urllen (server ++ resource.url ++ str "?watch=true&resourceVersion=" ++ version)

structure Fetchers where
  wtCluster : Cluster
  buf : Resource → Str
  changed : Resource → Bool

def Fetchers.read (env : Env) (cfg : K8sConfig) (fs : Fetchers) (chunk : Resource × Str) : Result Fetchers := do
  let (resource, data) := chunk
  let (_, fe) ← feWatchRead (feWatchLineAt env cfg) data
    ⟨fs.buf resource, ⟨fs.wtCluster, fs.changed resource⟩⟩
  return {
    wtCluster := fe.st.wtCluster
    buf := Function.update fs.buf resource fe.buf
    changed := Function.update fs.changed resource fe.st.changed
  }

def Fetchers.reads (env : Env) (cfg : K8sConfig) (fs : Fetchers) (chunks : List (Resource × Str))
    : Result Fetchers :=
  chunks.foldlM (Fetchers.read env cfg) fs

structure WatchTurn where
  -- `curl_multi_perform`: what it reads, whether it returns `CURLM_OK`, and how many transfers still run
  chunks : List (Resource × Str)
  performed : Bool
  running : Nat
  -- `curl_multi_timeout`
  timeout : Int
  -- does `curl_multi_wait` return `CURLM_OK`?
  waited : Bool
  time : Int

def noCallback (wtCluster : Cluster) (data : ρ) : Result (Cluster × ρ) :=
  .ok (wtCluster, data)

section

variable {ρ : Type} (env : Env) (cfg : K8sConfig) (callback : Cluster → ρ → Result (Cluster × ρ))

def watchTurn (deadline : Int) (turn : WatchTurn) (fs : Fetchers) (data : ρ)
    : Result (Option Int × Fetchers × ρ) := do
  let fs ← fs.reads env cfg turn.chunks
  if !turn.performed then
    return (some (-1), fs, data)
  else if turn.running ≠ resources.length then
    return (some (-1), fs, data)
  else if turn.timeout = 0 then
    return (none, fs, data)
  else if !turn.waited then
    return (some (-1), fs, data)
  else if deadline ≤ turn.time then
    return (some 0, fs, data)
  else if resources.any fs.changed then do
    let (wtCluster, data) ← callback fs.wtCluster data
    return (none, { fs with wtCluster := wtCluster, changed := fun _ => false }, data)
  else
    return (none, fs, data)

def fetcherWatch (deadline : Int) : List WatchTurn → Fetchers → ρ → Result (Option Int × Fetchers × ρ)
  | [], fs, data => .ok (none, fs, data)
  | turn :: turns, fs, data => do
    let (ret, fs, data) ← watchTurn env cfg callback deadline turn fs data
    match ret with
    | some ret => return (some ret, fs, data)
    | none => fetcherWatch deadline turns fs data

def fetcherWatchUrls (server : Str) (version : Resource → Option Str) (easy : Resource → Bool)
    : List Resource → Result (Option (List Str))
  | [] => .ok (some [])
  | resource :: rest =>
    if !easy resource then
      .ok none
    else do
      let v ← deref (version resource)
      let urls ← fetcherWatchUrls server version easy rest
      return urls.map (fetcherWatchUrl server resource v :: ·)

inductive Phase where
  -- in front of `fetcher_get_all`
  | resync (wtCluster : Cluster)
  -- in front of a turn of the loop in `fetcher_watch`
  | watch (urls : List Str) (deadline : Int) (fetchers : Fetchers)

def Phase.wtCluster : Phase → Cluster
  | .resync wtCluster => wtCluster
  | .watch _ _ fetchers => fetchers.wtCluster

structure WatcherThread (ρ : Type) where
  phase : Phase
  version : Resource → Option Str
  data : ρ

/--
What `fetcher_get_all` and the start of `fetcher_watch` meet with. There are no messages if curl fails before the
transfers are done.
-/
structure ResyncTurn where
  msgs : Option (List Completion)
  multi : Bool
  easy : Resource → Bool
  time : Int

def resyncTurn (server : Str) (turn : ResyncTurn) (wtCluster : Cluster) (version : Resource → Option Str)
    (data : ρ) : Result (WatcherThread ρ) :=
  match turn.msgs with
  | none => .ok ⟨.resync wtCluster, version, data⟩
  | some msgs => do
    let res ← fetcherGetAll env cfg wtCluster version msgs
    if res.ret = -1 then
      return ⟨.resync res.wtCluster, res.version, data⟩
    else
      let (wtCluster, data) ← callback res.wtCluster data
      if !turn.multi then
        return ⟨.resync wtCluster, res.version, data⟩
      else
        match ← fetcherWatchUrls server res.version turn.easy resources with
        | none => return ⟨.resync wtCluster, res.version, data⟩
        | some urls =>
          let fetchers := { wtCluster := wtCluster, buf := fun _ => [], changed := fun _ => false }
          return ⟨.watch urls (turn.time + resyncInterval) fetchers, res.version, data⟩

-- The steps of `watcher_thread`. It goes back to `fetcher_get_all` whatever `fetcher_watch` returns.
inductive WatcherThread.Step (server : Str) : WatcherThread ρ → WatcherThread ρ → Prop where
  | resync (turn : ResyncTurn) {wtCluster : Cluster} {version : Resource → Option Str} {data : ρ}
      {thread : WatcherThread ρ}
      (h : resyncTurn env cfg callback server turn wtCluster version data = .ok thread)
      : Step server ⟨.resync wtCluster, version, data⟩ thread
  | goes (turn : WatchTurn) {urls : List Str} {deadline : Int} {fs fs' : Fetchers}
      {version : Resource → Option Str} {data data' : ρ}
      (h : watchTurn env cfg callback deadline turn fs data = .ok (none, fs', data'))
      : Step server ⟨.watch urls deadline fs, version, data⟩ ⟨.watch urls deadline fs', version, data'⟩
  | ends (turn : WatchTurn) {urls : List Str} {deadline ret : Int} {fs fs' : Fetchers}
      {version : Resource → Option Str} {data data' : ρ}
      (h : watchTurn env cfg callback deadline turn fs data = .ok (some ret, fs', data'))
      : Step server ⟨.watch urls deadline fs, version, data⟩ ⟨.resync fs'.wtCluster, version, data'⟩

end
