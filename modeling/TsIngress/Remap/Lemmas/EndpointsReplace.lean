import TsIngress.Api.Lemmas.Endpoints
import TsIngress.Remap.Lemmas.Order

/-!
This module contains the update of endpoints that the watcher leaves out because `endpoints_equal` finds
them unchanged: the database would be built the same with it.
-/

theorem BuildStep.run_eq_action (env : Env) (cs : Cluster) (hosts : Hash RemapHost) (step : BuildStep)
    : BuildStep.run env cs hosts step
        =
      match step.action env cs with
      | none => .error .nullPointer
      | some (hostname, f) => KeyedRun.upsert hosts hostname remapHostNew f := by
  cases step with
  | noSecretName => rfl
  | host hostname op => rfl

theorem foldlM_run_eq_of_map_action_eq {env : Env} {cs cs' : Cluster} {steps steps' : List BuildStep}
    (h : steps.map (BuildStep.action env cs) = steps'.map (BuildStep.action env cs'))
    (hosts : Hash RemapHost)
    : steps.foldlM (BuildStep.run env cs) hosts = steps'.foldlM (BuildStep.run env cs') hosts := by
  let runAction (hosts : Hash RemapHost) (action : Option (Str × (RemapHost → Result RemapHost)))
      : Result (Hash RemapHost) :=
    match action with
    | none => .error .nullPointer
    | some (hostname, f) => KeyedRun.upsert hosts hostname remapHostNew f
  have hmap : ∀ (cs : Cluster) (steps : List BuildStep),
      steps.foldlM (BuildStep.run env cs) hosts
        = (steps.map (BuildStep.action env cs)).foldlM runAction hosts := by
    intro cs steps
    rw [List.foldlM_map]
    congr 1
    funext hosts step
    exact BuildStep.run_eq_action env cs hosts step
  rw [hmap, hmap, h]

theorem remapDbFromCluster_map_fst (env : Env) (cfg : K8sConfig) (cs : Cluster)
    : (remapDbFromCluster env cfg cs).map Prod.fst
        =
      ((clusterSteps cfg cs).foldlM (BuildStep.run env cs) (hashNew 4093)).map
        fun hosts => ⟨cfg, some cs.csConfig.ccHealthcheck, hosts⟩ := by
  rcases remapDbFromCluster_related env cfg cs with ⟨st, hosts, hst, hsteps, hdb, -⟩ | ⟨f, hf, hsteps⟩
  . rw [hst, hsteps, Except.map, Except.map, hdb]
  . rw [hf, hsteps, Except.map, Except.map]

theorem SameAnswers.refl (ns : Namespace) : SameAnswers ns ns where
  nsName_eq := rfl
  secret_eq _ := rfl
  service_eq _ := rfl
  endpoints_eq _ := rfl

theorem SameDefaults.map_namespaceSteps_eq {cs cs' : Cluster} (h : SameDefaults cs cs') (env : Env)
    (cfg : K8sConfig) {ns ns' : Namespace} (hanswers : SameAnswers ns ns')
    (hingresses : ns'.nsIngresses = ns.nsIngresses)
    : (namespaceSteps cfg cs ns).map (BuildStep.action env cs)
        =
      (namespaceSteps cfg cs' ns').map (BuildStep.action env cs') := by
  unfold namespaceSteps
  rw [List.map_flatMap, List.map_flatMap, hingresses]
  congr 1
  funext ing
  exact h.map_ingressSteps_eq env hanswers cfg ing

-- A namespace that the build cannot tell from the one it stands for: the same Ingresses and answers.
section

variable {cs : Cluster} {name : Str} {ns : Namespace} {f : Namespace → Namespace}
variable (hget : hashGet cs.csNamespaces name = some ns) (hanswers : SameAnswers ns (f ns))

include hget hanswers

theorem sameDefaults_modifyNamespace : SameDefaults cs (cs.modifyNamespace name f) where
  config_eq := rfl
  defaultSecret_eq := by
    intro host
    unfold defaultSecret
    have hcert : clusterGetCertForHostname (cs.modifyNamespace name f) host
        = clusterGetCertForHostname cs host := rfl
    rw [hcert]
    cases clusterGetCertForHostname cs host with
    | none => rfl
    | some crt =>
      dsimp only
      by_cases hname : crt.crNamespace = name
      . have hmod : hashGet (cs.modifyNamespace name f).csNamespaces name
            = (hashGet cs.csNamespaces name).map f :=
          ChainTable.get_modify_self _ _ _
        rw [hname, hmod, hget]
        exact hanswers.secret_eq _
      . have hmod : hashGet (cs.modifyNamespace name f).csNamespaces crt.crNamespace
            = hashGet cs.csNamespaces crt.crNamespace :=
          ChainTable.get_modify_ne _ _ _ _ hname
        rw [hmod]

theorem remapDbFromCluster_modifyNamespace (hingresses : (f ns).nsIngresses = ns.nsIngresses) (env : Env)
    (cfg : K8sConfig)
    : (remapDbFromCluster env cfg (cs.modifyNamespace name f)).map Prod.fst
        =
      (remapDbFromCluster env cfg cs).map Prod.fst := by
  have hdefaults := sameDefaults_modifyNamespace hget hanswers
  have hsteps : (clusterSteps cfg cs).map (BuildStep.action env cs)
      = (clusterSteps cfg (cs.modifyNamespace name f)).map
          (BuildStep.action env (cs.modifyNamespace name f)) := by
    rcases ChainTable.exists_entries_of_get hget with ⟨pre, post, hent, -, hmod⟩
    have hent' : (cs.modifyNamespace name f).csNamespaces.entries = pre ++ (name, f ns) :: post := hmod f
    unfold clusterSteps hashValues
    rw [hent, hent']
    simp only [List.map_append, List.map_cons, List.flatMap_append, List.flatMap_cons, List.map_flatMap]
    rw [hdefaults.map_namespaceSteps_eq env cfg hanswers hingresses]
    simp only [hdefaults.map_namespaceSteps_eq env cfg (.refl _) rfl]
  rw [remapDbFromCluster_map_fst, remapDbFromCluster_map_fst, foldlM_run_eq_of_map_action_eq hsteps]
  rfl

end

theorem sameAnswers_namespacePutEndpoints {ns : Namespace} {eps : Endpoints}
    (h : namespaceGetEndpoints ns eps.epName = some eps)
    : SameAnswers ns (namespacePutEndpoints ns eps) where
  nsName_eq := rfl
  secret_eq _ := rfl
  service_eq _ := rfl
  endpoints_eq := by
    intro name
    unfold namespaceGetEndpoints namespacePutEndpoints hashPut at *
    dsimp only
    by_cases hname : name = eps.epName
    . rw [hname, h]
      exact (ChainTable.get_set_self _ _ _).symm
    . have hset := ChainTable.get_set_ne (hashDel ns.nsEndpointses eps.epName) eps.epName name eps hname
      have hdel := ChainTable.get_del_ne ns.nsEndpointses eps.epName name hname
      exact (hset.trans hdel).symm

structure MadeEndpoints where
  eps : Endpoints
  made : ∃ obj, endpointsMake obj = some eps

theorem MadeEndpoints.equal_iff (a b : MadeEndpoints) : endpointsEqual a.eps b.eps = true ↔ a.eps = b.eps := by
  rcases a.made with ⟨obj, ha⟩
  rcases b.made with ⟨obj', hb⟩
  exact endpointsEqual_iff ha hb

structure Replaceable (a b : Endpoints) : Prop where
  targets : ∀ ns rp svc portName,
    buildAddEndpoints (namespacePutEndpoints ns a) rp svc portName
      = buildAddEndpoints (namespacePutEndpoints ns b) rp svc portName
  database : ∀ env cfg cs name ns, hashGet cs.csNamespaces name = some ns →
    namespaceGetEndpoints ns a.epName = some a →
    (remapDbFromCluster env cfg (cs.modifyNamespace name (namespacePutEndpoints · b))).map Prod.fst
      = (remapDbFromCluster env cfg cs).map Prod.fst

theorem replaceable_self (eps : Endpoints) : Replaceable eps eps where
  targets _ _ _ _ := rfl
  database := by
    intro env cfg cs name ns hget heps
    exact remapDbFromCluster_modifyNamespace hget (sameAnswers_namespacePutEndpoints heps) rfl env cfg

/--
Endpoints that are found equal can stand for each other, and the comparison is an equivalence that holds
for all endpoints that were made from the same JSON.
-/
theorem endpointsEqual_replaceable
    : (∀ a b : MadeEndpoints, endpointsEqual a.eps b.eps = true → Replaceable a.eps b.eps)
        ∧
      Equivalence (fun a b : MadeEndpoints => endpointsEqual a.eps b.eps = true)
        ∧
      ∀ obj a b, endpointsMake obj = some a → endpointsMake obj = some b → endpointsEqual a b = true := by
  refine ⟨?_, ?_, ?_⟩
  . intro a b h
    rw [MadeEndpoints.equal_iff] at h
    rw [h]
    exact replaceable_self b.eps
  . simp only [MadeEndpoints.equal_iff]
    exact ⟨fun a => rfl, fun h => h.symm, fun h h' => h.trans h'⟩
  . intro obj a b ha hb
    rw [endpointsEqual_iff ha hb]
    rw [ha, Option.some.injEq] at hb
    exact hb
