import TsIngress.Api.Lemmas.Endpoints
import TsIngress.Api.Lemmas.ObjectStore
import TsIngress.Lib.ExceptFold

/-!
This module contains the verification that lists and watch events converge: a cluster that was loaded
and then fed with events answers like one loaded with what is there in the end.
-/

def ResourceKind.watchKind : ResourceKind → String
  | .ingress => "Ingress"
  | .service => "Service"
  | .secret => "Secret"
  | .endpoints => "Endpoints"

def ResourceKind.listKind : ResourceKind → String
  | .ingress => "IngressList"
  | .service => "ServiceList"
  | .secret => "SecretList"
  | .endpoints => "EndpointsList"

def Accepts (env : Env) (key : ObjectKey) (item : Json) : Prop :=
  ∃ obj, key.kind.make env item = .ok (some obj) ∧ key.kind.namespaceOf obj = key.ns
    ∧ key.kind.nameOf obj = key.name

structure HasMetadata (item : Json) (ns name : Str) : Prop where
  metadata : ∃ metadata, jsonObjectMember item "metadata" = some metadata
    ∧ jsonStringMember metadata "namespace" = some ns ∧ jsonStringMember metadata "name" = some name

theorem ingressMake_metadata {env : Env} {item : Json} {ing : Ingress}
    (h : ingressMake env item = .ok (some ing))
    : HasMetadata item ing.inNamespace ing.inName := by
  unfold ingressMake at h
  split at h
  . cases h
  . next metadata hmetadata =>
    split at h
    . next ns name hns hname =>
      rw [Except.bind_eq_ok_iff] at h
      rcases h with ⟨annotations, -, h⟩
      split at h
      . cases h
        exact ⟨metadata, hmetadata, hns, hname⟩
      . rw [Except.bind_eq_ok_iff] at h
        rcases h with ⟨tls, -, h⟩
        rw [Except.bind_eq_ok_iff] at h
        rcases h with ⟨rules, -, h⟩
        cases h
        exact ⟨metadata, hmetadata, hns, hname⟩
    . cases h

theorem serviceMake_metadata {env : Env} {item : Json} {svc : Service}
    (h : serviceMake env item = .ok (some svc))
    : HasMetadata item svc.svNamespace svc.svName := by
  unfold serviceMake at h
  split at h
  . cases h
  . next metadata hmetadata =>
    split at h
    . next ns name hns hname =>
      split at h
      . cases h
        exact ⟨metadata, hmetadata, hns, hname⟩
      . iterate 5
          rw [Except.bind_eq_ok_iff] at h
          rcases h with ⟨_, -, h⟩
        cases h
        exact ⟨metadata, hmetadata, hns, hname⟩
    . cases h

theorem secretMake_metadata {item : Json} {sec : Secret} (h : secretMake item = some sec)
    : HasMetadata item sec.seNamespace sec.seName := by
  unfold secretMake at h
  split at h
  . cases h
  . next metadata hmetadata =>
    split at h
    . next ns name type hns hname htype =>
      cases h
      exact ⟨metadata, hmetadata, hns, hname⟩
    . cases h

theorem endpointsMake_metadata {item : Json} {eps : Endpoints} (h : endpointsMake item = some eps)
    : HasMetadata item eps.epNamespace eps.epName := by
  unfold endpointsMake at h
  split at h
  . cases h
  . next metadata hmetadata =>
    split at h
    . next ns name hns hname =>
      cases h
      exact ⟨metadata, hmetadata, hns, hname⟩
    . cases h

theorem ResourceKind.make_metadata {env : Env} {kind : ResourceKind} {item : Json} {obj : kind.Obj}
    (h : kind.make env item = .ok (some obj))
    : HasMetadata item (kind.namespaceOf obj) (kind.nameOf obj) := by
  cases kind with
  | ingress => exact ingressMake_metadata h
  | service => exact serviceMake_metadata h
  | secret => exact secretMake_metadata (Except.ok.inj h)
  | endpoints => exact endpointsMake_metadata (Except.ok.inj h)

theorem Accepts.hasMetadata {env : Env} {key : ObjectKey} {item : Json} (h : Accepts env key item)
    : HasMetadata item key.ns key.name := by
  rcases h with ⟨obj, hmake, hns, hname⟩
  rw [← hns, ← hname]
  exact ResourceKind.make_metadata hmake

theorem HasMetadata.namespace {item : Json} {ns name : Str} (h : HasMetadata item ns name)
    : (jsonObjectMember item "metadata").bind (jsonStringMember · "namespace") = some ns := by
  rcases h with ⟨metadata, hmetadata, hns, -⟩
  rw [hmetadata]
  exact hns

theorem fetcherProcessItem_eq (env : Env) (cfg : K8sConfig) (kind : ResourceKind) (st : Fetch)
    {item : Json} {ns : Str}
    (h : (jsonObjectMember item "metadata").bind (jsonStringMember · "namespace") = some ns)
    : fetcherProcessItem env cfg (str kind.listKind) st item
        =
      fetcherPutItem (kind.make env item) kind.put ns
        { st with new := (clusterGetNamespace st.new ns).2 } := by
  unfold fetcherProcessItem
  rw [h]
  cases kind <;> rfl

theorem fetcherProcessItem_represents {env : Env} (cfg : K8sConfig) {m : ObjectKey → Option Json}
    {st : Fetch} {key : ObjectKey} {item : Json} (h : Represents env st.new m)
    (hacc : Accepts env key item)
    : ∃ st', fetcherProcessItem env cfg (str key.kind.listKind) st item = .ok st'
        ∧ Represents env st'.new (Function.update m key (some item)) := by
  rw [fetcherProcessItem_eq env cfg key.kind st hacc.hasMetadata.namespace]
  rcases hacc with ⟨obj, hmake, -, hname⟩
  refine ⟨⟨st.live, _⟩, ?_, h.put key hmake hname⟩
  unfold fetcherPutItem
  rw [hmake]
  rfl

abbrev ObjectSet := AList fun _ : ObjectKey => Json

def fetchAll (env : Env) (cfg : K8sConfig) (st : Fetch) (objs : List (Sigma fun _ : ObjectKey => Json))
    : Result Fetch :=
  objs.foldlM (fun st e => fetcherProcessItem env cfg (str e.1.kind.listKind) st e.2) st

def addObject (m : ObjectKey → Option Json) (e : Sigma fun _ : ObjectKey => Json) : ObjectKey → Option Json :=
  Function.update m e.1 (some e.2)

theorem fetchAll_represents {env : Env} (cfg : K8sConfig) {objs : List (Sigma fun _ : ObjectKey => Json)}
    (hacc : ∀ e ∈ objs, Accepts env e.1 e.2) {m : ObjectKey → Option Json} {st : Fetch}
    (h : Represents env st.new m)
    : ∃ st', fetchAll env cfg st objs = .ok st'
        ∧ Represents env st'.new (objs.foldl addObject m) := by
  induction objs generalizing st m with
  | nil => exact ⟨st, rfl, h⟩
  | cons e objs ih =>
    rcases fetcherProcessItem_represents cfg h (hacc e (by simp)) with ⟨st1, hst1, h1⟩
    rcases ih (fun x hx => hacc x (by simp [hx])) h1 with ⟨st', hst', h'⟩
    refine ⟨st', ?_, h'⟩
    unfold fetchAll at hst' ⊢
    rw [List.foldlM_cons, hst1, Except.ok_bind, hst']

theorem foldl_addObject {objs : List (Sigma fun _ : ObjectKey => Json)} (hnodup : objs.NodupKeys)
    (m : ObjectKey → Option Json) (key : ObjectKey)
    : objs.foldl addObject m key = (objs.dlookup key).or (m key) := by
  induction objs generalizing m with
  | nil => rfl
  | cons e objs ih =>
    rw [List.nodupKeys_cons] at hnodup
    rw [List.foldl_cons, ih hnodup.2, addObject]
    by_cases hkey : key = e.1
    . subst hkey
      rw [List.dlookup_eq_none.mpr hnodup.1, Function.update_self, List.dlookup_cons_eq]
      rfl
    . rw [Function.update_of_ne hkey, List.dlookup_cons_ne _ _ hkey]

theorem fetchAll_clusterMake_represents {env : Env} (cfg : K8sConfig) (live : Cluster) {objs : ObjectSet}
    (hacc : ∀ e ∈ objs.entries, Accepts env e.1 e.2)
    : ∃ st, fetchAll env cfg ⟨live, clusterMake⟩ objs.entries = .ok st
        ∧ Represents env st.new objs.lookup := by
  have hnew : Represents env (Fetch.mk live clusterMake).new (fun _ => none) :=
    Represents.clusterMake env
  rcases fetchAll_represents cfg hacc hnew with ⟨st, hst, h⟩
  have hmap : objs.lookup = objs.entries.foldl addObject (fun _ => none) := by
    funext key
    rw [foldl_addObject objs.nodupKeys, Option.or_none]
    rfl
  rw [hmap]
  exact ⟨st, hst, h⟩

inductive EventType where
  | added
  | modified
  | deleted
  deriving DecidableEq, Repr

def EventType.text : EventType → String
  | .added => "ADDED"
  | .modified => "MODIFIED"
  | .deleted => "DELETED"

structure WatchEvent where
  action : EventType
  key : ObjectKey
  item : Json

def WatchEvent.apply (objs : ObjectSet) (ev : WatchEvent) : ObjectSet :=
  match ev.action with
  | .deleted => objs.erase ev.key
  | _ => objs.insert ev.key ev.item

def IsLineOf (env : Env) (line : Str) (ev : WatchEvent) : Prop :=
  ∃ obj, env.jsonTokenerParse line = some obj
    ∧ jsonStringMember obj "type" = some (str ev.action.text)
    ∧ jsonObjectObjectGetEx obj "object" = some ev.item
    ∧ jsonStringMember ev.item "kind" = some (str ev.key.kind.watchKind)

def WatchEvent.result (ev : WatchEvent) : Option Json :=
  if ev.action = .deleted then none else some ev.item

theorem WatchEvent.lookup_apply (objs : ObjectSet) (ev : WatchEvent)
    : (ev.apply objs).lookup = Function.update objs.lookup ev.key ev.result := by
  funext key
  rcases ev with ⟨action, evKey, item⟩
  by_cases hkey : key = evKey
  . subst hkey
    rw [Function.update_self]
    cases action with
    | added => exact AList.lookup_insert _
    | modified => exact AList.lookup_insert _
    | deleted => exact AList.lookup_erase _ _
  . rw [Function.update_of_ne hkey]
    cases action with
    | added => exact AList.lookup_insert_ne hkey
    | modified => exact AList.lookup_insert_ne hkey
    | deleted => exact AList.lookup_erase_ne hkey

theorem HasMetadata.isObject {item : Json} {ns name : Str} (h : HasMetadata item ns name)
    : ∃ fields, item = .object fields := by
  rcases h with ⟨metadata, hmetadata, -⟩
  cases item with
  | object fields => exact ⟨fields, rfl⟩
  | _ => cases hmetadata

def WatchEvent.isDeleted (ev : WatchEvent) : Bool :=
  str ev.action.text == str "DELETED"

theorem WatchEvent.result_eq (ev : WatchEvent)
    : ev.result = if ev.isDeleted then none else some ev.item := by
  unfold result isDeleted
  cases ev.action <;> rfl

theorem feWatchLine_eq (env : Env) (cfg : K8sConfig) (fe : FetcherCtx) {line : Str} {ev : WatchEvent}
    (hline : IsLineOf env line ev) (hmeta : HasMetadata ev.item ev.key.ns ev.key.name)
    : feWatchLine env cfg fe line
        =
      let fe := { fe with wtCluster := (clusterGetNamespace fe.wtCluster ev.key.ns).2 }
      if ev.key.kind = .endpoints then
        .ok (feWatchEndpoints ev.key.ns ev.key.name ev.isDeleted ev.item fe)
      else
        feWatchObject (ev.key.kind.make env ev.item) ev.key.kind.put ev.key.kind.del ev.key.ns ev.key.name
          ev.isDeleted fe := by
  rcases hline with ⟨obj, hparse, htype, hobj, hkind⟩
  rcases hmeta.isObject with ⟨fields, hfields⟩
  have hobject : jsonObjectMember obj "object" = some ev.item := by
    unfold jsonObjectMember
    rw [hobj, hfields]
  rcases hmeta with ⟨metadata, hmetadata, hns, hname⟩
  unfold feWatchLine
  simp only [hparse, htype, hobject, hkind, hmetadata, hns, hname]
  cases ev.key.kind <;> rfl

theorem feWatchObject_represents {env : Env} {m : ObjectKey → Option Json} {fe : FetcherCtx}
    {ev : WatchEvent} (h : Represents env fe.wtCluster m) (hacc : Accepts env ev.key ev.item)
    : ∃ fe', feWatchObject (ev.key.kind.make env ev.item) ev.key.kind.put ev.key.kind.del ev.key.ns
          ev.key.name ev.isDeleted
          { fe with wtCluster := (clusterGetNamespace fe.wtCluster ev.key.ns).2 } = .ok fe'
        ∧ Represents env fe'.wtCluster (Function.update m ev.key ev.result) := by
  rcases hacc with ⟨obj, hmake, -, hname⟩
  rw [ev.result_eq]
  unfold feWatchObject
  split
  . exact ⟨_, rfl, h.del ev.key⟩
  . rw [hmake]
    exact ⟨_, rfl, h.put ev.key hmake hname⟩

theorem feWatchEndpoints_represents {env : Env} {m : ObjectKey → Option Json} {fe : FetcherCtx}
    {ev : WatchEvent} (h : Represents env fe.wtCluster m) (hacc : Accepts env ev.key ev.item)
    (hkind : ev.key.kind = .endpoints)
    : Represents env
        (feWatchEndpoints ev.key.ns ev.key.name ev.isDeleted ev.item
          { fe with wtCluster := (clusterGetNamespace fe.wtCluster ev.key.ns).2 }).wtCluster
        (Function.update m ev.key ev.result) := by
  rw [ev.result_eq]
  rcases ev with ⟨action, ⟨kind, ns, name⟩, item⟩
  dsimp only at hkind hacc ⊢
  subst hkind
  rcases hacc with ⟨eps, hmake, -, hname⟩
  have hput := h.put ⟨.endpoints, ns, name⟩ hmake hname
  have heps : endpointsMake item = some eps := Except.ok.inj hmake
  unfold feWatchEndpoints
  split
  . exact h.del ⟨.endpoints, ns, name⟩
  . rw [heps]
    dsimp only
    split
    . exact hput
    . next old hold =>
      split
      . next heq =>
        rw [clusterGetNamespace_twice] at hold
        have hquery : clusterQuery fe.wtCluster .endpoints ns name = some old := hold
        -- the old endpoints were made from JSON too
        have hmade := (h.query .endpoints ns name).symm.trans hquery
        rw [Option.bind_eq_some_iff] at hmade
        rcases hmade with ⟨item', -, hold'⟩
        have hsame : eps = old := (endpointsEqual_iff heps hold').mp heq
        apply (h.getNamespace ns).update_self ⟨.endpoints, ns, name⟩
        rw [clusterQuery_clusterGetNamespace, hquery, ← hsame, ← heps]
        rfl
      . exact hput

theorem feWatchLine_represents {env : Env} (cfg : K8sConfig) {m : ObjectKey → Option Json}
    {fe : FetcherCtx} {line : Str} {ev : WatchEvent} (h : Represents env fe.wtCluster m)
    (hline : IsLineOf env line ev) (hacc : Accepts env ev.key ev.item)
    : ∃ fe', feWatchLine env cfg fe line = .ok fe'
        ∧ Represents env fe'.wtCluster (Function.update m ev.key ev.result) := by
  rw [feWatchLine_eq env cfg fe hline hacc.hasMetadata]
  dsimp only
  split
  . next hkind => exact ⟨_, rfl, feWatchEndpoints_represents h hacc hkind⟩
  . exact feWatchObject_represents h hacc

theorem feWatchLines_represents {env : Env} (cfg : K8sConfig) {lines : List Str} {evs : List WatchEvent}
    (hlines : List.Forall₂ (IsLineOf env) lines evs) (hacc : ∀ ev ∈ evs, Accepts env ev.key ev.item)
    {objs : ObjectSet} {fe : FetcherCtx} (h : Represents env fe.wtCluster objs.lookup)
    : ∃ fe', lines.foldlM (feWatchLine env cfg) fe = .ok fe'
        ∧ Represents env fe'.wtCluster (evs.foldl WatchEvent.apply objs).lookup := by
  induction hlines generalizing fe objs with
  | nil => exact ⟨fe, rfl, h⟩
  | cons hline hrest ih =>
    next line ev lines evs =>
    rcases feWatchLine_represents cfg h hline (hacc ev (by simp)) with ⟨fe1, hfe1, h1⟩
    rw [← WatchEvent.lookup_apply] at h1
    rcases ih (fun x hx => hacc x (by simp [hx])) h1 with ⟨fe', hfe', h'⟩
    refine ⟨fe', ?_, h'⟩
    rw [List.foldlM_cons, hfe1, Except.ok_bind, hfe']

theorem accepts_of_mem_apply {env : Env} {objs : ObjectSet} {ev : WatchEvent}
    (hobjs : ∀ e ∈ objs.entries, Accepts env e.1 e.2) (hev : Accepts env ev.key ev.item)
    : ∀ e ∈ (ev.apply objs).entries, Accepts env e.1 e.2 := by
  have hrest : ∀ e ∈ objs.entries.kerase ev.key, Accepts env e.1 e.2 := by
    intro e he
    exact hobjs e ((List.kerase_sublist ev.key objs.entries).subset he)
  have hput : ∀ e ∈ (objs.insert ev.key ev.item).entries, Accepts env e.1 e.2 := by
    intro e he
    rw [AList.entries_insert, List.mem_cons] at he
    rcases he with rfl | he
    . exact hev
    . exact hrest e he
  unfold WatchEvent.apply
  cases ev.action with
  | added => exact hput
  | modified => exact hput
  | deleted => exact hrest

theorem accepts_of_mem_foldl {env : Env} {objs : ObjectSet} {evs : List WatchEvent}
    (hobjs : ∀ e ∈ objs.entries, Accepts env e.1 e.2) (hevs : ∀ ev ∈ evs, Accepts env ev.key ev.item)
    : ∀ e ∈ (evs.foldl WatchEvent.apply objs).entries, Accepts env e.1 e.2 := by
  induction evs generalizing objs with
  | nil => exact hobjs
  | cons ev evs ih =>
    apply ih
    . exact accepts_of_mem_apply hobjs (hevs ev (by simp))
    . intro ev' hev'
      exact hevs ev' (by simp [hev'])

/--
A cluster loaded with a snapshot and fed with the lines of events answers like a cluster loaded with what
the events leave of the snapshot, in any order, and knows nothing else.
-/
theorem feWatchLine_converges (env : Env) (cfg : K8sConfig) (live live' : Cluster)
    (snapshot final : ObjectSet) (evs : List WatchEvent) (lines : List Str)
    (hsnapshot : ∀ e ∈ snapshot.entries, Accepts env e.1 e.2)
    (hevs : ∀ ev ∈ evs, Accepts env ev.key ev.item)
    (hlines : List.Forall₂ (IsLineOf env) lines evs)
    (hfinal : final.entries.Perm (evs.foldl WatchEvent.apply snapshot).entries)
    : ∃ st fe st',
        fetchAll env cfg ⟨live, clusterMake⟩ snapshot.entries = .ok st
          ∧
        lines.foldlM (feWatchLine env cfg) ⟨st.new, false⟩ = .ok fe
          ∧
        fetchAll env cfg ⟨live', clusterMake⟩ final.entries = .ok st'
          ∧
        (∀ kind ns name, clusterQuery fe.wtCluster kind ns name = clusterQuery st'.new kind ns name)
          ∧
        ∀ kind ns name, ⟨kind, ns, name⟩ ∉ final → clusterQuery fe.wtCluster kind ns name = none := by
  have hacc : ∀ e ∈ final.entries, Accepts env e.1 e.2 := by
    intro e he
    exact accepts_of_mem_foldl hsnapshot hevs e (hfinal.subset he)
  have hmap : (evs.foldl WatchEvent.apply snapshot).lookup = final.lookup := by
    funext key
    exact (AList.perm_lookup hfinal).symm
  rcases fetchAll_clusterMake_represents cfg live hsnapshot with ⟨st, hst, h⟩
  have hstart : Represents env (FetcherCtx.mk st.new false).wtCluster snapshot.lookup := h
  rcases feWatchLines_represents cfg hlines hevs hstart with ⟨fe, hfe, hwatched⟩
  rcases fetchAll_clusterMake_represents cfg live' hacc with ⟨st', hst', hloaded⟩
  rw [hmap] at hwatched
  refine ⟨st, fe, st', hst, hfe, hst', hwatched.query_eq hloaded, ?_⟩
  intro kind ns name hnot
  rw [hwatched.query, AList.lookup_eq_none.mpr hnot]
  rfl

def webEndpointsItem : Json :=
  .object
    [(str "kind", .string (str "Endpoints")),
      (str "metadata", .object
        [(str "namespace", .string (str "default")), (str "name", .string (str "web"))]),
      (str "subsets", .array [.object [(str "addresses", .array
        [.object [(str "ip", .string (str "10.1.2.3"))]])]])]

def webEndpointsLine (action : EventType) : Str :=
  str "\x7b\"type\":\"" ++ str action.text
    ++ str ("\",\"object\":\x7b\"kind\":\"Endpoints\",\"metadata\":\x7b\"namespace\":\"default\","
      ++ "\"name\":\"web\"\x7d,\"subsets\":[\x7b\"addresses\":[\x7b\"ip\":\"10.1.2.3\"\x7d]\x7d]\x7d\x7d")

def webEndpointsEnv : Env :=
  { plainEnv with
    jsonTokenerParse := fun line =>
      ([.added, .modified, .deleted].find? fun action => line = webEndpointsLine action).map fun action =>
        .object [(str "type", .string (str action.text)), (str "object", webEndpointsItem)] }

def webEndpointsEvent (action : EventType) : WatchEvent where
  action := action
  key := ⟨.endpoints, str "default", str "web"⟩
  item := webEndpointsItem

theorem accepts_webEndpoints (action : EventType)
    : Accepts webEndpointsEnv (webEndpointsEvent action).key (webEndpointsEvent action).item := by
  exact ⟨_, rfl, rfl, rfl⟩

theorem webEndpointsLine_inj {action action' : EventType}
    (h : webEndpointsLine action = webEndpointsLine action')
    : action = action' := by
  unfold webEndpointsLine at h
  rw [List.append_left_inj, List.append_right_inj] at h
  revert h
  cases action <;> cases action' <;> decide

theorem isLineOf_webEndpoints (action : EventType)
    : IsLineOf webEndpointsEnv (webEndpointsLine action) (webEndpointsEvent action) := by
  refine ⟨.object [(str "type", .string (str action.text)), (str "object", webEndpointsItem)], ?_, rfl, rfl, rfl⟩
  have hfind : ([.added, .modified, .deleted].find? fun action' =>
      webEndpointsLine action = webEndpointsLine action') = some action := by
    have heq : ∀ action', webEndpointsLine action = webEndpointsLine action' ↔ action = action' := by
      intro action'
      exact ⟨webEndpointsLine_inj, fun h => by rw [h]⟩
    simp only [heq]
    cases action <;> rfl
  dsimp only [webEndpointsEnv]
  rw [hfind]
  rfl

theorem feWatchLine_converges_web
    : ∃ st fe,
        fetchAll webEndpointsEnv ⟨hashNew 11, none, none⟩ ⟨clusterMake, clusterMake⟩
          [⟨⟨.endpoints, str "default", str "web"⟩, webEndpointsItem⟩] = .ok st
          ∧
        [webEndpointsLine .modified, webEndpointsLine .deleted].foldlM
          (feWatchLine webEndpointsEnv ⟨hashNew 11, none, none⟩) ⟨st.new, false⟩ = .ok fe
          ∧
        clusterQuery fe.wtCluster .endpoints (str "default") (str "web") = none := by
  rcases feWatchLine_converges webEndpointsEnv ⟨hashNew 11, none, none⟩ clusterMake clusterMake
    (AList.singleton ⟨.endpoints, str "default", str "web"⟩ webEndpointsItem) ∅
    [webEndpointsEvent .modified, webEndpointsEvent .deleted]
    [webEndpointsLine .modified, webEndpointsLine .deleted]
    (List.forall_mem_singleton.mpr (accepts_webEndpoints .added))
    (by simp [accepts_webEndpoints])
    (.cons (isLineOf_webEndpoints .modified) (.cons (isLineOf_webEndpoints .deleted) .nil))
    (.refl _) with ⟨st, fe, st', hst, hfe, -, -, hnone⟩
  exact ⟨st, fe, hst, hfe, hnone _ _ _ (AList.notMem_empty _)⟩
