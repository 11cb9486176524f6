import TsIngress.Api.Impl.Watcher
import TsIngress.Lib.ExceptFold

/-!
This module contains when a resync is all or nothing. The lists are read as one run over their items,
which ends with the first transfer that failed.
-/

def parsedList (env : Env) (body : Str) : Option (Str × List Json) :=
  if body.isEmpty then
    none
  else
    match env.jsonTokenerParse (body.takeWhile (· ≠ 0)) with
    | none => none
    | some obj =>
      match jsonArrayMember obj "items",
          (jsonObjectMember obj "metadata").bind (jsonStringMember · "resourceVersion"),
          jsonStringMember obj "kind" with
      | some items, some _, some kind => some (kind, items)
      | _, _, _ => none

def listItems (env : Env) (body : Str) : List (Str × Json) :=
  match parsedList env body with
  | none => []
  | some (kind, items) => items.map fun item => (kind, item)

def processItem (env : Env) (cfg : K8sConfig) (fetch : Fetch) (e : Str × Json) : Result Fetch :=
  fetcherProcessItem env cfg e.1 fetch e.2

theorem fetcherProcess_related (env : Env) (cfg : K8sConfig) (resource : Resource) (body : Str)
    (st : Resync)
    : Except.Related (fun st' fetch => st'.fetch = fetch) (fetcherProcess env cfg resource body st)
        ((listItems env body).foldlM (processItem env cfg) st.fetch) := by
  unfold fetcherProcess listItems parsedList
  split
  . exact .ok rfl
  . cases env.jsonTokenerParse (body.takeWhile (· ≠ 0)) with
    | none => exact .ok rfl
    | some obj =>
      dsimp only
      cases jsonArrayMember obj "items" with
      | none => exact .ok rfl
      | some items =>
        cases (jsonObjectMember obj "metadata").bind (jsonStringMember · "resourceVersion") with
        | none => exact .ok rfl
        | some rversion =>
          cases jsonStringMember obj "kind" with
          | none => exact .ok rfl
          | some skind =>
            dsimp only
            rw [List.foldlM_map]
            rcases Except.eq_ok_or_eq_error (items.foldlM (fetcherProcessItem env cfg skind) st.fetch)
              with ⟨fetch, hfetch⟩ | ⟨e, he⟩
            . rw [hfetch]
              exact .inl ⟨_, fetch, rfl, hfetch, rfl⟩
            . rw [he]
              exact .inr ⟨e, rfl, he⟩

def processedItems (env : Env) (msgs : List Completion) : List (Str × Json) :=
  (msgs.takeWhile (·.body.isSome)).flatMap fun msg => listItems env (msg.body.getD [])

def NoFailure (msgs : List Completion) : Prop :=
  ∀ msg ∈ msgs, msg.body.isSome

def EndsAs (msgs : List Completion) (res : GetAllResult) (fetch : Fetch) : Prop :=
  (NoFailure msgs ∧ res.ret = 0
    ∧ res.wtCluster = { fetch.live with csNamespaces := fetch.new.csNamespaces })
    ∨
  (¬ NoFailure msgs ∧ res.ret = -1 ∧ res.wtCluster = fetch.live)

theorem go_related (env : Env) (cfg : K8sConfig) (msgs : List Completion) (st : Resync)
    : Except.Related (EndsAs msgs) (fetcherGetAll.go env cfg msgs st)
        ((processedItems env msgs).foldlM (processItem env cfg) st.fetch) := by
  induction msgs generalizing st with
  | nil => exact .ok (.inl ⟨by simp [NoFailure], rfl, rfl⟩)
  | cons msg msgs ih =>
    unfold fetcherGetAll.go processedItems
    cases hbody : msg.body with
    | none =>
      rw [List.takeWhile_cons_of_neg (by simp [hbody])]
      exact .ok (.inr ⟨by simp [NoFailure, hbody], rfl, rfl⟩)
    | some body =>
      rw [List.takeWhile_cons_of_pos (by simp [hbody]), List.flatMap_cons, List.foldlM_append, hbody]
      apply Except.Related.bind (fetcherProcess_related env cfg msg.resource body st)
      rintro st' fetch rfl
      have hmsgs : EndsAs (msg :: msgs) = EndsAs msgs := by
        unfold EndsAs NoFailure
        simp [hbody]
      rw [hmsgs]
      exact ih st'

-- The item does not lead the function that makes an object of it to a null pointer.
def ItemReturns (env : Env) (e : Str × Json) : Prop :=
  (e.1 = str "IngressList" → Except.Returns (ingressMake env e.2))
    ∧
  (e.1 = str "ServiceList" → Except.Returns (serviceMake env e.2))

def controllerMap (cfg : K8sConfig) (e : Str × Json) : Option ConfigMap :=
  if e.1 = str "ConfigMapList" then
    match configmapMake e.2 with
    | none => none
    | some cm => if isControllerMap cfg cm.cmNamespace cm.cmName then some cm else none
  else
    none

section

variable {item : Json}
  (hnone : (jsonObjectMember item "metadata").bind (jsonStringMember · "namespace") = none)

include hnone

theorem metadata_of_no_namespace
    : jsonObjectMember item "metadata" = none
        ∨
      ∃ metadata, jsonObjectMember item "metadata" = some metadata
        ∧ jsonStringMember metadata "namespace" = none := by
  cases hmetadata : jsonObjectMember item "metadata" with
  | none => exact .inl rfl
  | some metadata =>
    rw [hmetadata, Option.bind_some] at hnone
    exact .inr ⟨metadata, rfl, hnone⟩

theorem ingressMake_of_no_namespace (env : Env) : ingressMake env item = .ok none := by
  unfold ingressMake
  rcases metadata_of_no_namespace hnone with hmetadata | ⟨metadata, hmetadata, hns⟩
  . rw [hmetadata]
    rfl
  . rw [hmetadata]
    dsimp only
    rw [hns]
    rfl

theorem serviceMake_of_no_namespace (env : Env) : serviceMake env item = .ok none := by
  unfold serviceMake
  rcases metadata_of_no_namespace hnone with hmetadata | ⟨metadata, hmetadata, hns⟩
  . rw [hmetadata]
    rfl
  . rw [hmetadata]
    dsimp only
    rw [hns]
    rfl

theorem configmapMake_of_no_namespace : configmapMake item = none := by
  unfold configmapMake
  rcases metadata_of_no_namespace hnone with hmetadata | ⟨metadata, hmetadata, hns⟩
  . rw [hmetadata]
  . rw [hmetadata]
    dsimp only
    rw [hns]

end

theorem fetcherPutItem_returns_iff (made : Result (Option α)) (put : Namespace → α → Namespace) (ns : Str)
    (st : Fetch)
    : Except.Returns (fetcherPutItem made put ns st) ↔ Except.Returns made := by
  unfold fetcherPutItem
  rcases Except.eq_ok_or_eq_error made with ⟨obj, rfl⟩ | ⟨e, rfl⟩
  . rw [Except.ok_bind]
    cases obj <;> exact iff_of_true (.ok _) (.ok _)
  . rw [Except.error_bind]
    simp [Except.Returns]

theorem fetcherPutItem_live (made : Result (Option α)) (put : Namespace → α → Namespace) (ns : Str)
    (st : Fetch)
    : Except.Ensures (fetcherPutItem made put ns st) fun st' => st'.live = st.live := by
  unfold fetcherPutItem
  apply Except.Ensures.bind
  intro obj _
  cases obj <;> exact Except.Ensures.ok rfl

theorem processItem_returns_iff (env : Env) (cfg : K8sConfig) (fetch : Fetch) (e : Str × Json)
    : Except.Returns (processItem env cfg fetch e) ↔ ItemReturns env e := by
  rcases e with ⟨kind, item⟩
  unfold processItem fetcherProcessItem ItemReturns
  dsimp only
  cases hns : (jsonObjectMember item "metadata").bind (jsonStringMember · "namespace") with
  | none =>
    rw [ingressMake_of_no_namespace hns, serviceMake_of_no_namespace hns]
    exact iff_of_true (.ok _) ⟨fun _ => .ok _, fun _ => .ok _⟩
  | some ns =>
    dsimp only
    split
    . next hing =>
      rw [fetcherPutItem_returns_iff]
      exact ⟨fun h => ⟨fun _ => h, fun hsvc => absurd (hing.symm.trans hsvc) (by decide)⟩, fun h => h.1 hing⟩
    . next hing =>
      split
      . next hsvc =>
        rw [fetcherPutItem_returns_iff]
        exact ⟨fun h => ⟨fun h' => absurd h' hing, fun _ => h⟩, fun h => h.2 hsvc⟩
      . next hsvc =>
        -- none of the other functions can go wrong
        refine iff_of_true ?_ ⟨fun h => absurd h hing, fun h => absurd h hsvc⟩
        refine Except.Returns.ite (fun _ => ?_) (fun _ => ?_)
        . rw [fetcherPutItem_returns_iff]
          exact .ok _
        refine Except.Returns.ite (fun _ => ?_) (fun _ => ?_)
        . rw [fetcherPutItem_returns_iff]
          exact .ok _
        exact Except.Returns.ite (fun _ => .ok _) (fun _ => .ok _)

theorem processItem_live {env : Env} {cfg : K8sConfig} {fetch fetch' : Fetch} {e : Str × Json}
    (h : processItem env cfg fetch e = .ok fetch')
    : fetch'.live.csNamespaces = fetch.live.csNamespaces
        ∧
      fetch'.live.csConfig = ((controllerMap cfg e).map clusterConfigOf).getD fetch.live.csConfig := by
  rcases e with ⟨kind, item⟩
  unfold processItem fetcherProcessItem at h
  unfold controllerMap
  dsimp only at h ⊢
  cases hns : (jsonObjectMember item "metadata").bind (jsonStringMember · "namespace") with
  | none =>
    rw [hns] at h
    cases h
    rw [configmapMake_of_no_namespace hns]
    simp
  | some ns =>
    rw [hns] at h
    dsimp only at h
    by_cases hkind : kind = str "ConfigMapList"
    . subst hkind
      rw [if_pos rfl]
      cases h
      unfold fetcherSetConfigmap
      cases configmapMake item with
      | none => exact ⟨rfl, rfl⟩
      | some cm =>
        dsimp only
        split
        . exact ⟨rfl, rfl⟩
        . exact ⟨rfl, rfl⟩
    . rw [if_neg hkind]
      have hlive : fetch'.live = fetch.live := by
        revert h
        apply Except.Ensures.ite <;> intro _
        . apply fetcherPutItem_live
        apply Except.Ensures.ite <;> intro _
        . apply fetcherPutItem_live
        apply Except.Ensures.ite <;> intro _
        . apply fetcherPutItem_live
        apply Except.Ensures.ite <;> intro _
        . apply fetcherPutItem_live
        rw [if_neg hkind]
        exact Except.Ensures.ok rfl
      rw [hlive]
      exact ⟨rfl, rfl⟩

theorem foldlM_processItem_live {env : Env} {cfg : K8sConfig} {fetch fetch' : Fetch}
    {es : List (Str × Json)} (h : es.foldlM (processItem env cfg) fetch = .ok fetch')
    : fetch'.live.csNamespaces = fetch.live.csNamespaces
        ∧
      fetch'.live.csConfig
        = ((es.filterMap (controllerMap cfg)).getLast?.map clusterConfigOf).getD fetch.live.csConfig := by
  constructor
  . apply ExceptFold.foldlM_invariant (P := fun f => f.live.csNamespaces = fetch.live.csNamespaces) _ rfl h
    intro f e f' _ hf hstep
    rw [(processItem_live hstep).1, hf]
  . have hstep : ∀ (f : Fetch) (e : Str × Json) (f' : Fetch), e ∈ es → processItem env cfg f e = .ok f' →
        f'.live.csConfig = ((controllerMap cfg e).map clusterConfigOf).getD f.live.csConfig := by
      intro f e f' _ hf
      exact (processItem_live hf).2
    rw [ExceptFold.foldlM_lastWrite hstep h, ← List.getLast?_map, List.map_filterMap]

structure Transfers where
  msgs : List Completion
  -- one message for each resource, in any order
  each : (msgs.map Completion.resource).Perm resources

def AllWellFormed (env : Env) (msgs : List Completion) : Prop :=
  ∀ msg ∈ msgs, ∃ body, msg.body = some body ∧ (parsedList env body).isSome

def AllOrNothing (env : Env) (cfg : K8sConfig) (cluster : Cluster) (version : Resource → Option Str)
    (msgs : List Completion) : Prop :=
  ∃ res, fetcherGetAll env cfg cluster version msgs = .ok res
    ∧ (res.ret = 0 ↔ AllWellFormed env msgs)
    ∧ (¬ AllWellFormed env msgs → res.wtCluster.csNamespaces = cluster.csNamespaces
      ∧ res.wtCluster.csConfig = cluster.csConfig)

-- The configuration that was read before the first failure is the one that was there.
def ConfigKept (env : Env) (cfg : K8sConfig) (cluster : Cluster) (msgs : List Completion) : Prop :=
  ∀ cm, ((processedItems env msgs).filterMap (controllerMap cfg)).getLast? = some cm →
    clusterConfigOf cm = cluster.csConfig

theorem AllWellFormed.noFailure {env : Env} {msgs : List Completion} (h : AllWellFormed env msgs)
    : NoFailure msgs := by
  intro msg hmsg
  rcases h msg hmsg with ⟨body, hbody, -⟩
  rw [hbody]
  rfl

theorem configKept_iff {env : Env} {cfg : K8sConfig} {cluster : Cluster} {msgs : List Completion}
    {fetch : Fetch}
    (h : (processedItems env msgs).foldlM (processItem env cfg) ⟨cluster, clusterMake⟩ = .ok fetch)
    : fetch.live.csConfig = cluster.csConfig ↔ ConfigKept env cfg cluster msgs := by
  rw [(foldlM_processItem_live h).2]
  unfold ConfigKept
  cases ((processedItems env msgs).filterMap (controllerMap cfg)).getLast? <;> simp

/--
A resync is all or nothing exactly if no item leads to a null pointer, and either all bodies are
well-formed lists or some transfer failed and the configuration read before that is the old one.
-/
theorem fetcherGetAll_allOrNothing_iff (env : Env) (cfg : K8sConfig) (cluster : Cluster)
    (version : Resource → Option Str) (tr : Transfers)
    : AllOrNothing env cfg cluster version tr.msgs
        ↔
      (∀ e ∈ processedItems env tr.msgs, ItemReturns env e)
        ∧
      (AllWellFormed env tr.msgs ∨ ¬ NoFailure tr.msgs ∧ ConfigKept env cfg cluster tr.msgs) := by
  have hret := ExceptFold.foldlM_returns_iff (l := processedItems env tr.msgs)
    (fun st item _ => processItem_returns_iff env cfg st item) ⟨cluster, clusterMake⟩
  rw [← hret]
  unfold AllOrNothing
  rcases go_related env cfg tr.msgs ⟨⟨cluster, clusterMake⟩, version⟩ with
    ⟨res, fetch, hgo, hfetch, hends⟩ | ⟨e, hgo, hfetch⟩
  . have hall : fetcherGetAll env cfg cluster version tr.msgs = .ok res := hgo
    simp only [hall, Except.ok.injEq, exists_eq_left', hfetch]
    rcases hends with ⟨hno, hzero, -⟩ | ⟨hfail, hminus, hcluster⟩
    . constructor
      . rintro ⟨hwf, -⟩
        exact ⟨.ok _, .inl (hwf.mp hzero)⟩
      . rintro ⟨-, hwf | ⟨hfail, -⟩⟩
        . exact ⟨iff_of_true hzero hwf, fun hnot => absurd hwf hnot⟩
        . exact absurd hno hfail
    . have hwf : ¬ AllWellFormed env tr.msgs := fun h => hfail h.noFailure
      constructor
      . rintro ⟨-, hkeep⟩
        refine ⟨.ok _, .inr ⟨hfail, ?_⟩⟩
        rw [← configKept_iff hfetch, ← hcluster]
        exact (hkeep hwf).2
      . rintro ⟨-, hwf' | ⟨-, hkept⟩⟩
        . exact absurd hwf' hwf
        . refine ⟨iff_of_false (by rw [hminus]; decide) hwf, fun _ => ?_⟩
          rw [hcluster]
          exact ⟨(foldlM_processItem_live hfetch).1, (configKept_iff hfetch).mpr hkept⟩
  . have hall : fetcherGetAll env cfg cluster version tr.msgs = .error e := hgo
    rw [hall, hfetch]
    simp [Except.Returns]

-- No list came, but the transfers did not fail: the namespaces are lost and the call reports success.
theorem not_fetcherGetAll_allOrNothing
    : ¬ ∀ (env : Env) (cfg : K8sConfig) (cluster : Cluster) (version : Resource → Option Str)
        (tr : Transfers), AllOrNothing env cfg cluster version tr.msgs := by
  intro h
  have hmsgs : ((resources.map fun r => Completion.mk r (some (str "Unauthorized"))).map
      Completion.resource).Perm resources := by
    rfl
  rcases h plainEnv ⟨hashNew 11, none, none⟩ clusterMake (fun _ => none) ⟨_, hmsgs⟩ with ⟨res, hres, hret, -⟩
  cases hres
  rcases hret.mp rfl ⟨.services, some (str "Unauthorized")⟩ (by simp [resources]) with ⟨body, hbody, hlist⟩
  cases hbody
  cases hlist
