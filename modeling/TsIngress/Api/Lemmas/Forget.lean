import TsIngress.Api.Lemmas.Converge
import TsIngress.Api.Lemmas.Resync

/-!
This module contains what a resync forgets. The objects in the live cluster are afterwards those of the
lists. The configuration is the old one unless the lists hold the controller's ConfigMap.
-/

theorem ResourceKind.listKind_inj {kind kind' : ResourceKind}
    (h : str kind.listKind = str kind'.listKind)
    : kind = kind' := by
  revert h
  cases kind <;> cases kind' <;> decide

theorem ResourceKind.made_of_no_namespace (env : Env) (kind : ResourceKind) {item : Json}
    (hnone : (jsonObjectMember item "metadata").bind (jsonStringMember · "namespace") = none)
    : kind.made env item = none := by
  unfold made
  split
  . next obj hmake =>
    cases obj with
    | none => rfl
    | some obj =>
      rw [(make_metadata hmake).namespace] at hnone
      cases hnone
  . rfl

def madeFor (env : Env) (kind : ResourceKind) (ns name : Str) (e : Str × Json) : Option kind.Obj :=
  if e.1 = str kind.listKind then
    (kind.made env e.2).filter fun obj => kind.namespaceOf obj = ns ∧ kind.nameOf obj = name
  else
    none

theorem madeFor_of_ne {env : Env} {kind : ResourceKind} {ns name : Str} {e : Str × Json}
    (hne : e.1 ≠ str kind.listKind)
    : madeFor env kind ns name e = none := by
  unfold madeFor
  rw [if_neg hne]

theorem madeFor_of_made {env : Env} {kind : ResourceKind} {ns name : Str} {item : Json}
    : madeFor env kind ns name (str kind.listKind, item)
        =
      (kind.made env item).filter fun obj => kind.namespaceOf obj = ns ∧ kind.nameOf obj = name := by
  unfold madeFor
  rw [if_pos rfl]

theorem fetcherSetConfigmap_new (cfg : K8sConfig) (item : Json) (st : Fetch)
    : (fetcherSetConfigmap cfg item st).new = st.new := by
  unfold fetcherSetConfigmap
  split
  . rfl
  . split <;> rfl

theorem fetcherProcessItem_other {env : Env} {cfg : K8sConfig} {kind : Str} {st st' : Fetch} {item : Json}
    {ns : Str} (hkind : ∀ k : ResourceKind, kind ≠ str k.listKind)
    (hns : (jsonObjectMember item "metadata").bind (jsonStringMember · "namespace") = some ns)
    (h : fetcherProcessItem env cfg kind st item = .ok st')
    : st'.new = (clusterGetNamespace st.new ns).2 := by
  have hingress : kind ≠ str "IngressList" := hkind .ingress
  have hservice : kind ≠ str "ServiceList" := hkind .service
  have hsecret : kind ≠ str "SecretList" := hkind .secret
  have hendpoints : kind ≠ str "EndpointsList" := hkind .endpoints
  unfold fetcherProcessItem at h
  rw [hns] at h
  dsimp only at h
  rw [if_neg hingress, if_neg hservice, if_neg hsecret, if_neg hendpoints] at h
  split at h
  . cases h
    exact fetcherSetConfigmap_new _ _ _
  . cases h
    rfl

theorem fetcherPutItem_query {env : Env} {item : Json} {k : ResourceKind} {st st' : Fetch} {ns' : Str}
    (hns' : (jsonObjectMember item "metadata").bind (jsonStringMember · "namespace") = some ns')
    (h : fetcherPutItem (k.make env item) k.put ns' { st with new := (clusterGetNamespace st.new ns').2 }
      = .ok st')
    (kind : ResourceKind) (ns name : Str)
    : clusterQuery st'.new kind ns name
        =
      (madeFor env kind ns name (str k.listKind, item)).or (clusterQuery st.new kind ns name) := by
  unfold fetcherPutItem at h
  rw [Except.bind_eq_ok_iff] at h
  rcases h with ⟨made, hmake, h⟩
  have hmade : k.made env item = made := by
    unfold ResourceKind.made
    rw [hmake]
  have hne : kind ≠ k → madeFor env kind ns name (str k.listKind, item) = none := by
    intro hne
    apply madeFor_of_ne
    intro heq
    exact hne (ResourceKind.listKind_inj heq).symm
  cases made with
  | none =>
    cases h
    rw [clusterQuery_clusterGetNamespace]
    by_cases hkind : kind = k
    . subst hkind
      rw [madeFor_of_made, hmade]
      rfl
    . rw [hne hkind, Option.none_or]
  | some obj =>
    cases h
    by_cases hkind : kind = k
    . subst hkind
      -- the item is put where its metadata says
      have hobj : kind.namespaceOf obj = ns' := by
        apply Option.some.inj
        rw [← hns', (ResourceKind.make_metadata hmake).namespace]
      rw [clusterQuery_put, madeFor_of_made, hmade, Option.filter_some, hobj]
      by_cases hkey : ns' = ns ∧ kind.nameOf obj = name
      . simp [hkey]
      . simp [hkey]
    . rw [clusterQuery_put_of_ne _ _ _ _ hkind, hne hkind, Option.none_or]

theorem processItem_query {env : Env} {cfg : K8sConfig} {fetch fetch' : Fetch} {e : Str × Json}
    (h : processItem env cfg fetch e = .ok fetch') (kind : ResourceKind) (ns name : Str)
    : clusterQuery fetch'.new kind ns name
        =
      (madeFor env kind ns name e).or (clusterQuery fetch.new kind ns name) := by
  rcases e with ⟨skind, item⟩
  unfold processItem at h
  dsimp only at h
  cases hns : (jsonObjectMember item "metadata").bind (jsonStringMember · "namespace") with
  | none =>
    unfold fetcherProcessItem at h
    rw [hns] at h
    cases h
    unfold madeFor
    rw [ResourceKind.made_of_no_namespace env kind hns]
    simp
  | some ns' =>
    by_cases hkind : ∃ k : ResourceKind, skind = str k.listKind
    . rcases hkind with ⟨k, rfl⟩
      rw [fetcherProcessItem_eq env cfg k fetch hns] at h
      exact fetcherPutItem_query hns h kind ns name
    . have hnot : ∀ k : ResourceKind, skind ≠ str k.listKind := by
        intro k hk
        exact hkind ⟨k, hk⟩
      rw [fetcherProcessItem_other hnot hns h, clusterQuery_clusterGetNamespace, madeFor_of_ne (hnot kind),
        Option.none_or]

def lastMade (env : Env) (es : List (Str × Json)) (kind : ResourceKind) (ns name : Str)
    : Option kind.Obj :=
  (es.filterMap (madeFor env kind ns name)).getLast?

def lastConfig (cfg : K8sConfig) (es : List (Str × Json)) : Option ClusterConfig :=
  (es.filterMap (controllerMap cfg)).getLast?.map clusterConfigOf

theorem foldlM_processItem_query {env : Env} {cfg : K8sConfig} {live : Cluster} {fetch : Fetch}
    {es : List (Str × Json)} (h : es.foldlM (processItem env cfg) ⟨live, clusterMake⟩ = .ok fetch)
    (kind : ResourceKind) (ns name : Str)
    : clusterQuery fetch.new kind ns name = lastMade env es kind ns name := by
  have hstep : ∀ (f : Fetch) (e : Str × Json) (f' : Fetch), e ∈ es → processItem env cfg f e = .ok f' →
      clusterQuery f'.new kind ns name
        = ((madeFor env kind ns name e).map some).getD (clusterQuery f.new kind ns name) := by
    intro f e f' _ hf
    rw [processItem_query hf]
    cases madeFor env kind ns name e <;> rfl
  have hnew : clusterQuery clusterMake kind ns name = none := by
    exact (Represents.clusterMake env).query kind ns name
  rw [ExceptFold.foldlM_lastWrite hstep h, hnew, ← List.map_filterMap, List.getLast?_map]
  unfold lastMade
  cases (es.filterMap (madeFor env kind ns name)).getLast? <;> rfl

-- Where several lists hold one object, or the controller's ConfigMap, both orders end with the same one.
structure SameLast (env : Env) (cfg : K8sConfig) (es es' : List (Str × Json)) : Prop where
  objects : ∀ kind ns name, lastMade env es kind ns name = lastMade env es' kind ns name
  config : lastConfig cfg es = lastConfig cfg es'

def ResyncForgets (env : Env) (cfg : K8sConfig) (cluster cluster' : Cluster)
    (version version' : Resource → Option Str) (msgs msgs' : List Completion) : Prop :=
  ∃ res res', fetcherGetAll env cfg cluster version msgs = .ok res
    ∧ fetcherGetAll env cfg cluster' version' msgs' = .ok res'
    ∧ (∀ kind ns name,
      clusterQuery res.wtCluster kind ns name = clusterQuery res'.wtCluster kind ns name)
    ∧ res.wtCluster.csConfig = res'.wtCluster.csConfig

theorem NoFailure.perm {msgs msgs' : List Completion} (h : NoFailure msgs) (horder : msgs.Perm msgs')
    : NoFailure msgs' := by
  intro msg hmsg
  exact h msg (horder.symm.subset hmsg)

theorem processedItems_of_noFailure {env : Env} {msgs : List Completion} (h : NoFailure msgs)
    : processedItems env msgs = msgs.flatMap fun msg => listItems env (msg.body.getD []) := by
  unfold processedItems
  rw [List.takeWhile_eq_self_iff.mpr h]

theorem processedItems_perm (env : Env) {msgs msgs' : List Completion} (horder : msgs.Perm msgs')
    (h : NoFailure msgs)
    : (processedItems env msgs).Perm (processedItems env msgs') := by
  rw [processedItems_of_noFailure h, processedItems_of_noFailure (h.perm horder)]
  exact horder.flatMap_right _

theorem clusterQuery_exchange (live new : Cluster) (kind : ResourceKind) (ns name : Str)
    : clusterQuery { live with csNamespaces := new.csNamespaces } kind ns name
        =
      clusterQuery new kind ns name := by
  rw [clusterQuery_eq, clusterQuery_eq, clusterGetNamespace_fst, clusterGetNamespace_fst]

theorem lastConfig_eq_none_iff (cfg : K8sConfig) (es : List (Str × Json))
    : lastConfig cfg es = none ↔ ¬ ∃ e ∈ es, (controllerMap cfg e).isSome := by
  unfold lastConfig
  rw [Option.map_eq_none_iff, List.getLast?_eq_none_iff, List.filterMap_eq_nil_iff]
  simp

theorem fetcherGetAll_of_noFailure {env : Env} {cfg : K8sConfig} {cluster : Cluster}
    {version : Resource → Option Str} {msgs : List Completion} {res : GetAllResult}
    (hno : NoFailure msgs) (h : fetcherGetAll env cfg cluster version msgs = .ok res)
    : (∀ kind ns name,
        clusterQuery res.wtCluster kind ns name = lastMade env (processedItems env msgs) kind ns name)
        ∧
      res.wtCluster.csConfig = (lastConfig cfg (processedItems env msgs)).getD cluster.csConfig := by
  rcases go_related env cfg msgs ⟨⟨cluster, clusterMake⟩, version⟩ with
    ⟨res', fetch, hgo, hfetch, hends⟩ | ⟨e, hgo, -⟩
  . cases h.symm.trans hgo
    rcases hends with ⟨-, -, hcluster⟩ | ⟨hfail, -, -⟩
    . rw [hcluster]
      constructor
      . intro kind ns name
        rw [clusterQuery_exchange]
        exact foldlM_processItem_query hfetch kind ns name
      . exact (foldlM_processItem_live hfetch).2
    . exact absurd hno hfail
  . cases h.symm.trans hgo

theorem fetcherGetAll_returns_iff (env : Env) (cfg : K8sConfig) (cluster : Cluster)
    (version : Resource → Option Str) (msgs : List Completion)
    : Except.Returns (fetcherGetAll env cfg cluster version msgs)
        ↔
      ∀ e ∈ processedItems env msgs, ItemReturns env e := by
  rw [← ExceptFold.foldlM_returns_iff (fun st item _ => processItem_returns_iff env cfg st item)
    ⟨cluster, clusterMake⟩]
  exact (go_related env cfg msgs ⟨⟨cluster, clusterMake⟩, version⟩).returns_iff

theorem lastConfig_getD_eq_iff (cfg : K8sConfig) {es es' : List (Str × Json)} (hperm : es.Perm es')
    (cc cc' : ClusterConfig)
    : (lastConfig cfg es).getD cc = (lastConfig cfg es').getD cc'
        ↔
      lastConfig cfg es = lastConfig cfg es'
        ∧
      ((∃ e ∈ es, (controllerMap cfg e).isSome) ∨ cc = cc') := by
  have hsome : lastConfig cfg es = none ↔ lastConfig cfg es' = none := by
    rw [lastConfig_eq_none_iff, lastConfig_eq_none_iff]
    simp only [hperm.mem_iff]
  have hfound := lastConfig_eq_none_iff cfg es
  cases hlast : lastConfig cfg es with
  | none =>
    rw [hlast] at hsome hfound
    rw [hsome.mp rfl]
    simp [hfound.mp rfl]
  | some config =>
    rw [hlast] at hsome hfound
    cases hlast' : lastConfig cfg es' with
    | none => simp [hlast'] at hsome
    | some config' =>
      have hex : ∃ e ∈ es, (controllerMap cfg e).isSome := by
        by_contra hnot
        cases hfound.mpr hnot
      simp [hex]

theorem flatMap_eq_of_perm {g : α → List β} {l l' : List α} (hperm : l.Perm l')
    (halone : l.Pairwise fun a b => g a = [] ∨ g b = [])
    : l.flatMap g = l'.flatMap g := by
  induction hperm with
  | nil => rfl
  | cons a _ ih => rw [List.flatMap_cons, List.flatMap_cons, ih halone.of_cons]
  | swap a b l =>
    have hab : g b = [] ∨ g a = [] := by
      exact (List.pairwise_cons.mp halone).1 a (by simp)
    simp only [List.flatMap_cons]
    rcases hab with h | h <;> simp [h]
  | trans hperm _ ih ih' =>
    rw [ih halone]
    apply ih'
    apply (hperm.pairwise_iff _).mp halone
    intro a b hab
    exact hab.symm

def Completion.listKind (env : Env) (msg : Completion) : Option Str :=
  (msg.body.bind (parsedList env)).map Prod.fst

theorem listKind_of_mem_listItems {env : Env} {msg : Completion} {e : Str × Json}
    (h : e ∈ listItems env (msg.body.getD []))
    : msg.listKind env = some e.1 := by
  unfold Completion.listKind
  cases hbody : msg.body with
  | none =>
    rw [hbody] at h
    cases h
  | some body =>
    rw [hbody, Option.getD_some] at h
    unfold listItems at h
    rw [Option.bind_some]
    split at h
    . cases h
    . next kind items hlist =>
      rw [List.mem_map] at h
      rcases h with ⟨item, -, rfl⟩
      rw [hlist]
      rfl

def DistinctKinds (env : Env) (msgs : List Completion) : Prop :=
  (msgs.map (Completion.listKind env)).Nodup

theorem DistinctKinds.filterMap_eq {env : Env} {msgs msgs' : List Completion}
    (hkinds : DistinctKinds env msgs) (horder : msgs.Perm msgs') (hno : NoFailure msgs) {kind : Str}
    {w : Str × Json → Option α} (hw : ∀ e, e.1 ≠ kind → w e = none)
    : (processedItems env msgs).filterMap w = (processedItems env msgs').filterMap w := by
  have hlist : ∀ msg : Completion, msg.listKind env ≠ some kind →
      (listItems env (msg.body.getD [])).filterMap w = [] := by
    intro msg hmsg
    rw [List.filterMap_eq_nil_iff]
    intro e he
    apply hw
    intro hkind
    apply hmsg
    rw [listKind_of_mem_listItems he, hkind]
  rw [processedItems_of_noFailure hno, processedItems_of_noFailure (hno.perm horder), List.filterMap_flatMap,
    List.filterMap_flatMap]
  apply flatMap_eq_of_perm horder
  apply (List.pairwise_map.mp hkinds).imp
  intro msg msg' hne
  by_cases hkind : msg.listKind env = some kind
  . rw [hkind] at hne
    exact .inr (hlist msg' hne.symm)
  . exact .inl (hlist msg hkind)

theorem DistinctKinds.sameLast {env : Env} {msgs msgs' : List Completion}
    (hkinds : DistinctKinds env msgs) (horder : msgs.Perm msgs') (hno : NoFailure msgs) (cfg : K8sConfig)
    : SameLast env cfg (processedItems env msgs) (processedItems env msgs') where
  objects := by
    intro kind ns name
    unfold lastMade
    rw [hkinds.filterMap_eq horder hno (fun e => madeFor_of_ne)]
  config := by
    have hmap : ∀ e : Str × Json, e.1 ≠ str "ConfigMapList" → controllerMap cfg e = none := by
      intro e hne
      unfold controllerMap
      rw [if_neg hne]
    unfold lastConfig
    rw [hkinds.filterMap_eq horder hno hmap]

/--
Whatever order the lists come in, a resync forgets the past exactly if no item leads to a null pointer,
the order makes no difference between lists of one kind, and either the lists hold the controller's
ConfigMap or the configuration was the same before.
-/
theorem fetcherGetAll_forgets_iff (env : Env) (cfg : K8sConfig) (cluster cluster' : Cluster)
    (version version' : Resource → Option Str) (tr tr' : Transfers) (horder : tr.msgs.Perm tr'.msgs)
    (hwf : AllWellFormed env tr.msgs)
    : ResyncForgets env cfg cluster cluster' version version' tr.msgs tr'.msgs
        ↔
      (∀ e ∈ processedItems env tr.msgs, ItemReturns env e)
        ∧
      SameLast env cfg (processedItems env tr.msgs) (processedItems env tr'.msgs)
        ∧
      ((∃ e ∈ processedItems env tr.msgs, (controllerMap cfg e).isSome)
        ∨ cluster.csConfig = cluster'.csConfig) := by
  have hno : NoFailure tr.msgs := hwf.noFailure
  have hno' : NoFailure tr'.msgs := hno.perm horder
  have hperm := processedItems_perm env horder hno
  have hconfig := lastConfig_getD_eq_iff cfg hperm cluster.csConfig cluster'.csConfig
  constructor
  . rintro ⟨res, res', hres, hres', hquery, hcc⟩
    rcases fetcherGetAll_of_noFailure hno hres with ⟨hobjs, hlast⟩
    rcases fetcherGetAll_of_noFailure hno' hres' with ⟨hobjs', hlast'⟩
    rw [hlast, hlast', hconfig] at hcc
    refine ⟨(fetcherGetAll_returns_iff env cfg cluster version tr.msgs).mp ⟨res, hres⟩, ⟨?_, hcc.1⟩, hcc.2⟩
    intro kind ns name
    rw [← hobjs, ← hobjs', hquery]
  . rintro ⟨hitems, hsame, hkept⟩
    have hitems' : ∀ e ∈ processedItems env tr'.msgs, ItemReturns env e := by
      intro e he
      exact hitems e (hperm.symm.subset he)
    rcases (fetcherGetAll_returns_iff env cfg cluster version tr.msgs).mpr hitems with ⟨res, hres⟩
    rcases (fetcherGetAll_returns_iff env cfg cluster' version' tr'.msgs).mpr hitems' with ⟨res', hres'⟩
    rcases fetcherGetAll_of_noFailure hno hres with ⟨hobjs, hlast⟩
    rcases fetcherGetAll_of_noFailure hno' hres' with ⟨hobjs', hlast'⟩
    refine ⟨res, res', hres, hres', ?_, ?_⟩
    . intro kind ns name
      rw [hobjs, hobjs', hsame.objects]
    . rw [hlast, hlast', hconfig]
      exact ⟨hsame.config, hkept⟩

def Resource.listKind : Resource → String
  | .services => "ServiceList"
  | .endpoints => "EndpointsList"
  | .secrets => "SecretList"
  | .configmaps => "ConfigMapList"
  | .ingresses => "IngressList"

def listText (items : Resource → Str) (r : Resource) : Str :=
  str "\x7b\"kind\":\"" ++ (str r.listKind
    ++ (str "\",\"metadata\":\x7b\"resourceVersion\":\"7\"\x7d,\"items\":[" ++ items r ++ str "]\x7d"))

def listJson (items : Resource → List Json) (r : Resource) : Json :=
  .object
    [(str "kind", .string (str r.listKind)),
      (str "metadata", .object [(str "resourceVersion", .string (str "7"))]),
      (str "items", .array (items r))]

def listsEnv (text : Resource → Str) (items : Resource → List Json) : Env :=
  { plainEnv with
    jsonTokenerParse := fun s => (resources.find? fun r => s = listText text r).map (listJson items) }

def listTransfers (text : Resource → Str) : Transfers where
  msgs := resources.map fun r => ⟨r, some (listText text r)⟩
  each := by
    rfl

theorem listText_inj {text : Resource → Str} {r r' : Resource} (h : listText text r = listText text r')
    : r = r' := by
  unfold listText at h
  rw [List.append_right_inj] at h
  -- three letters tell the kinds apart
  have hthree : ∀ r : Resource, 3 ≤ (str r.listKind).length := by
    intro r
    cases r <;> decide
  have htake := congrArg (List.take 3) h
  rw [List.take_append_of_le_length (hthree r), List.take_append_of_le_length (hthree r')] at htake
  revert htake
  cases r <;> cases r' <;> decide

theorem find?_listText (text : Resource → Str) (r : Resource)
    : (resources.find? fun r' => listText text r = listText text r') = some r := by
  have heq : ∀ r', listText text r = listText text r' ↔ r = r' := by
    intro r'
    exact ⟨listText_inj, fun h => by rw [h]⟩
  simp only [heq]
  cases r <;> rfl

section

variable {text : Resource → Str} (hnul : ∀ r, 0 ∉ text r) (items : Resource → List Json)

include hnul

theorem notMem_listText (r : Resource) : 0 ∉ listText text r := by
  have hhead : 0 ∉ str "\x7b\"kind\":\"" := by
    decide
  have hkind : 0 ∉ str r.listKind := by
    cases r <;> decide
  have hmiddle : 0 ∉ str "\",\"metadata\":\x7b\"resourceVersion\":\"7\"\x7d,\"items\":[" := by
    decide +kernel
  have htail : 0 ∉ str "]\x7d" := by
    decide
  unfold listText
  simp only [List.mem_append, not_or]
  exact ⟨hhead, hkind, ⟨hmiddle, hnul r⟩, htail⟩

theorem parsedList_listText (r : Resource)
    : parsedList (listsEnv text items) (listText text r) = some (str r.listKind, items r) := by
  have htext : (listText text r).takeWhile (· ≠ 0) = listText text r :=
    cstr_of_notMem (notMem_listText hnul r)
  have hparse : (listsEnv text items).jsonTokenerParse (listText text r) = some (listJson items r) := by
    dsimp only [listsEnv]
    rw [find?_listText, Option.map_some]
  unfold parsedList
  rw [htext, hparse]
  rfl

theorem allWellFormed_listTransfers : AllWellFormed (listsEnv text items) (listTransfers text).msgs := by
  intro msg hmsg
  unfold listTransfers at hmsg
  rw [List.mem_map] at hmsg
  rcases hmsg with ⟨r, -, rfl⟩
  refine ⟨_, rfl, ?_⟩
  rw [parsedList_listText hnul]
  rfl

theorem distinctKinds_listTransfers : DistinctKinds (listsEnv text items) (listTransfers text).msgs := by
  have hkind : ∀ r : Resource,
      (Completion.mk r (some (listText text r))).listKind (listsEnv text items) = some (str r.listKind) := by
    intro r
    unfold Completion.listKind
    rw [Option.bind_some, parsedList_listText hnul]
    rfl
  unfold DistinctKinds listTransfers
  simp only [List.map_map, Function.comp_def, hkind]
  decide

theorem processedItems_listTransfers
    : processedItems (listsEnv text items) (listTransfers text).msgs
        =
      resources.flatMap fun r => (items r).map fun item => (str r.listKind, item) := by
  rw [processedItems_of_noFailure (allWellFormed_listTransfers hnul items).noFailure]
  unfold listTransfers listItems
  simp only [List.flatMap_map, Option.getD_some, parsedList_listText hnul]

end

def controllerText : Resource → Str
  | .configmaps =>
    str "\x7b\"metadata\":\x7b\"namespace\":\"kube-system\",\"name\":\"ingress\"\x7d\x7d"
  | _ => []

def controllerItem : Json :=
  .object
    [(str "metadata", .object
      [(str "namespace", .string (str "kube-system")), (str "name", .string (str "ingress"))])]

def controllerItems : Resource → List Json
  | .configmaps => [controllerItem]
  | _ => []

def controllerConfig : K8sConfig :=
  ⟨hashNew 11, some (str "kube-system"), some (str "ingress")⟩

def withoutHttp2 : Cluster :=
  clusterSetConfigmap clusterMake
    (some ⟨str "ingress", str "kube-system", hashSet (hashNew 127) (str "http2-enable") (str "false")⟩)

-- The ConfigMap is in the lists, so neither their order nor the old configuration matters.
theorem fetcherGetAll_forgets_withoutHttp2
    : ResyncForgets (listsEnv controllerText controllerItems) controllerConfig withoutHttp2 clusterMake
        (fun _ => none) (fun _ => none) (listTransfers controllerText).msgs
        (listTransfers controllerText).msgs.reverse := by
  have hnul : ∀ r, 0 ∉ controllerText r := by
    intro r
    cases r <;> decide +kernel
  have horder := (List.reverse_perm (listTransfers controllerText).msgs).symm
  have hwf := allWellFormed_listTransfers hnul controllerItems
  have hkinds := distinctKinds_listTransfers hnul controllerItems
  have hitems : processedItems (listsEnv controllerText controllerItems) (listTransfers controllerText).msgs
      = [(str "ConfigMapList", controllerItem)] := by
    rw [processedItems_listTransfers hnul]
    rfl
  apply (fetcherGetAll_forgets_iff (listsEnv controllerText controllerItems) controllerConfig withoutHttp2
    clusterMake (fun _ => none) (fun _ => none) (listTransfers controllerText)
    ⟨_, (horder.symm.map _).trans (listTransfers controllerText).each⟩ horder hwf).mpr
  refine ⟨?_, hkinds.sameLast horder hwf.noFailure _, .inl ?_⟩
  . rw [hitems]
    intro e he
    rw [List.mem_singleton.mp he]
    exact ⟨fun h => absurd h (by decide), fun h => absurd h (by decide)⟩
  . rw [hitems]
    refine ⟨_, List.mem_singleton_self _, ?_⟩
    decide +kernel

-- The ConfigMap is gone from the lists, but HTTP/2 stays off where it was off.
theorem not_fetcherGetAll_forgets
    : ¬ ∀ (env : Env) (cfg : K8sConfig) (cluster cluster' : Cluster)
        (version version' : Resource → Option Str) (tr tr' : Transfers),
        tr.msgs.Perm tr'.msgs → AllWellFormed env tr.msgs →
          ResyncForgets env cfg cluster cluster' version version' tr.msgs tr'.msgs := by
  intro h
  have hnul : ∀ r : Resource, 0 ∉ (fun _ : Resource => ([] : Str)) r := by
    simp
  have hwf := allWellFormed_listTransfers hnul (fun _ => [])
  have hitems := processedItems_listTransfers hnul (fun _ => [])
  rcases h _ controllerConfig withoutHttp2 clusterMake (fun _ => none) (fun _ => none) _ _ (.refl _) hwf with
    ⟨res, res', hres, hres', -, hconfig⟩
  rw [(fetcherGetAll_of_noFailure hwf.noFailure hres).2, (fetcherGetAll_of_noFailure hwf.noFailure hres').2,
    hitems] at hconfig
  have hhttp2 : withoutHttp2.csConfig.ccHttp2 = clusterMake.csConfig.ccHttp2 := by
    exact congrArg ClusterConfig.ccHttp2 hconfig
  revert hhttp2
  decide +kernel
