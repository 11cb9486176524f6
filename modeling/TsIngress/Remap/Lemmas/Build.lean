import TsIngress.Remap.Lemmas.BuildPath
import TsIngress.Remap.Lemmas.HostOps
import TsIngress.Api.Lemmas.DomainAccess

/-!
This module contains the proof that `remap_db_from_cluster` carries out the steps of the cluster in
order, on a cluster that only grows by empty namespaces.
-/

inductive Grown (cs : Cluster) : Cluster → Prop where
  | refl : Grown cs cs
  | add {cs' : Cluster} (h : Grown cs cs') (name : Str)
      (hname : hashGet cs'.csNamespaces name = none)
      : Grown cs { cs' with csNamespaces := hashSet cs'.csNamespaces name (namespaceMake name) }

namespace Grown

variable {cs cs' : Cluster}

theorem csConfig_eq (h : Grown cs cs') : cs'.csConfig = cs.csConfig := by
  induction h with
  | refl => rfl
  | add h name hname ih => exact ih

theorem get_cases (h : Grown cs cs') (name : Str)
    : hashGet cs'.csNamespaces name = hashGet cs.csNamespaces name
        ∨
      (hashGet cs.csNamespaces name = none
        ∧ hashGet cs'.csNamespaces name = some (namespaceMake name)) := by
  induction h with
  | refl => exact .inl rfl
  | add h added hadded ih =>
    by_cases heq : name = added
    . subst heq
      right
      rw [hadded] at ih
      refine ⟨?_, ChainTable.get_set_self _ _ _⟩
      rcases ih with ih | ih
      . exact ih.symm
      . exact ih.1
    . dsimp only [hashGet, hashSet]
      rw [ChainTable.get_set_ne _ _ _ _ heq]
      exact ih

theorem bucketAt_eq (h : Grown cs cs') (i : Nat)
    : ∃ extra,
        cs'.csNamespaces.bucketAt i = extra ++ cs.csNamespaces.bucketAt i
          ∧
        ∀ e ∈ extra, e.2 = namespaceMake e.1 := by
  induction h with
  | refl => exact ⟨[], rfl, by simp⟩
  | add h added hadded ih =>
    rcases ih with ⟨extra, heq, hextra⟩
    dsimp only [hashSet]
    rw [ChainTable.bucketAt_set]
    split
    . refine ⟨(added, namespaceMake added) :: extra, by rw [heq, List.cons_append], ?_⟩
      intro e he
      cases he with
      | head => rfl
      | tail _ he => exact hextra e he
    . exact ⟨extra, heq, hextra⟩

theorem of_clusterGetNamespace (h : Grown cs cs') (name : Str)
    : Grown cs (clusterGetNamespace cs' name).2 := by
  unfold clusterGetNamespace
  split
  . exact h
  . next hnone => exact .add h name hnone

theorem secret_eq (h : Grown cs cs') (name secretName : Str)
    : namespaceGetSecret (clusterGetNamespace cs' name).1 secretName
        =
      (hashGet cs.csNamespaces name).bind (namespaceGetSecret · secretName) := by
  unfold clusterGetNamespace
  rcases h.get_cases name with hget | ⟨hnone, hget⟩
  . rw [hget]
    cases hashGet cs.csNamespaces name with
    | none => rfl
    | some ns => rfl
  . rw [hnone, hget]
    rfl

theorem attachDefaultTls (h : Grown cs cs') (env : Env) (rh : RemapHost) (host : Str)
    : (remapHostAttachDefaultTls env rh cs' host).1 = rh.attachDefault env (defaultSecret cs host)
        ∧
      Grown cs (remapHostAttachDefaultTls env rh cs' host).2 := by
  have hcert : clusterGetCertForHostname cs' host = clusterGetCertForHostname cs host := by
    unfold clusterGetCertForHostname
    rw [h.csConfig_eq]
  unfold remapHostAttachDefaultTls defaultSecret
  rw [hcert]
  cases clusterGetCertForHostname cs host with
  | none => exact ⟨rfl, h⟩
  | some crt =>
    have hsecret := h.secret_eq crt.crNamespace crt.crName
    have hgrown := h.of_clusterGetNamespace crt.crNamespace
    dsimp only
    cases hget : hashGet cs.csNamespaces crt.crNamespace with
    | none =>
      rw [hget, Option.bind_none] at hsecret
      simp only [hsecret]
      exact ⟨rfl, hgrown⟩
    | some ns =>
      rw [hget, Option.bind_some] at hsecret
      simp only [hsecret]
      cases namespaceGetSecret ns crt.crName with
      | none => exact ⟨rfl, hgrown⟩
      | some srt => exact ⟨rfl, hgrown⟩

end Grown

theorem buildIngressPath_congr (env : Env) {cs cs' : Cluster} (h : cs'.csConfig = cs.csConfig)
    (ns : Namespace) (ing : Ingress)
    : buildIngressPath env cs' ns ing = buildIngressPath env cs ns ing := by
  funext rh path
  unfold buildIngressPath remapHostAnnotate
  rw [h]

theorem buildIngressPath_objects (env : Env) (cs : Cluster) (ns : Namespace) (ing : Ingress)
    : buildIngressPath env cs ns.objects ing = buildIngressPath env cs ns ing := by
  rfl

theorem HostOp.apply_congr (env : Env) {cs cs' : Cluster} (h : cs'.csConfig = cs.csConfig)
    (op : HostOp)
    : op.apply env cs' = op.apply env cs := by
  funext rh
  cases op with
  | rule dflt ns ing paths =>
    dsimp only [apply]
    rw [buildIngressPath_congr env h]
  | tls secret => rfl

theorem upsert_rdHosts (db : RemapDb) (host : Str) (f : RemapHost → Result RemapHost)
    : KeyedRun.upsert db.rdHosts host remapHostNew f
        =
      (f (remapDbGetOrCreateHost db host).1 >>= fun rh =>
        .ok ((remapDbGetOrCreateHost db host).2.setHost host rh).rdHosts) := by
  unfold KeyedRun.upsert remapDbGetOrCreateHost remapDbGetHost hashGet
  cases db.rdHosts.get host with
  | none => rfl
  | some rh => rfl

structure Follows (cfg : K8sConfig) (cs : Cluster) (st : RemapDb × Cluster) (hosts : Hash RemapHost)
    : Prop where
  rdHosts_eq : st.1.rdHosts = hosts
  rdConfig_eq : st.1.rdConfig = cfg
  rdHealthcheck_eq : st.1.rdHealthcheck = none
  grown : Grown cs st.2

namespace Follows

variable {cfg : K8sConfig} {cs : Cluster} {db : RemapDb} {cs' : Cluster} {hosts : Hash RemapHost}

theorem setHost (h : Follows cfg cs (db, cs') hosts) {cs'' : Cluster} (hgrown : Grown cs cs'')
    (host : Str) (rh : RemapHost)
    : Follows cfg cs ((remapDbGetOrCreateHost db host).2.setHost host rh, cs'')
        ((remapDbGetOrCreateHost db host).2.setHost host rh).rdHosts := by
  have hdb : (remapDbGetOrCreateHost db host).2.rdConfig = db.rdConfig
      ∧ (remapDbGetOrCreateHost db host).2.rdHealthcheck = db.rdHealthcheck := by
    unfold remapDbGetOrCreateHost
    split
    . exact ⟨rfl, rfl⟩
    . exact ⟨rfl, rfl⟩
  refine ⟨rfl, ?_, ?_, hgrown⟩
  . exact hdb.1.trans h.rdConfig_eq
  . exact hdb.2.trans h.rdHealthcheck_eq

theorem after_rule (h : Follows cfg cs (db, cs') hosts) (env : Env) (ns : Namespace) (ing : Ingress)
    (rule : IngressRule)
    : Except.Related (Follows cfg cs) (buildIngressRule env ns ing (db, cs') rule)
        ((ruleSteps cs ns ing rule).foldlM (BuildStep.run env cs) hosts) := by
  have hhosts : hosts = db.rdHosts := h.rdHosts_eq.symm
  unfold buildIngressRule ruleSteps
  cases rule.irHost with
  | none => exact .ok h
  | some host =>
    dsimp only
    rw [clusterDomainForNs_congr cs' cs host ns.nsName h.grown.csConfig_eq]
    cases clusterDomainForNs cs host ns.nsName with
    | false => exact .ok h
    | true =>
      rcases h.grown.attachDefaultTls env (remapDbGetOrCreateHost db host).1 host with ⟨hdflt, hgrown⟩
      rw [if_neg (by simp), if_pos rfl, List.foldlM_cons]
      simp only [List.foldlM_nil, bind_pure]
      rw [hdflt, hhosts, BuildStep.run, upsert_rdHosts, HostOp.apply,
        buildIngressPath_congr env hgrown.csConfig_eq, buildIngressPath_objects]
      apply Except.Related.bind (Except.Related.refl _)
      rintro rh _ rfl
      exact .ok (h.setHost hgrown host rh)

theorem after_tlsHosts (h : Follows cfg cs (db, cs') hosts) (env : Env) (ns : Namespace) (secret : Secret)
    (hostnames : List Str)
    : Except.Related (Follows cfg cs) (.ok (buildTlsHosts env cs' ns secret db hostnames, cs'))
        (((hostnames.takeWhile (clusterDomainForNs cs · ns.nsName)).map fun hostname =>
          BuildStep.host hostname (.tls secret)).foldlM (BuildStep.run env cs) hosts) := by
  induction hostnames generalizing db hosts with
  | nil => exact .ok h
  | cons hostname rest ih =>
    unfold buildTlsHosts
    rw [clusterDomainForNs_congr cs' cs hostname ns.nsName h.grown.csConfig_eq]
    cases hdom : clusterDomainForNs cs hostname ns.nsName with
    | false =>
      rw [List.takeWhile_cons, hdom]
      exact .ok h
    | true =>
      rw [List.takeWhile_cons, if_pos hdom, List.map_cons, List.foldlM_cons, ← h.rdHosts_eq,
        BuildStep.run, upsert_rdHosts]
      exact ih (h.setHost h.grown hostname _)

theorem after_tls (h : Follows cfg cs (db, cs') hosts) (env : Env) (ns : Namespace) (itls : IngressTls)
    : Except.Related (Follows cfg cs) (buildIngressTls env ns (db, cs') itls)
        ((tlsSteps cs ns itls).foldlM (BuildStep.run env cs) hosts) := by
  unfold buildIngressTls tlsSteps
  cases itls.itSecretName with
  | none => exact .inr ⟨.nullPointer, rfl, rfl⟩
  | some name =>
    dsimp only
    rw [deref_some, Except.ok_bind]
    cases namespaceGetSecret ns name with
    | none => exact .ok h
    | some secret => exact h.after_tlsHosts env ns secret itls.itHosts

theorem after_ingress {st : RemapDb × Cluster} (h : Follows cfg cs st hosts) (env : Env) (ns : Namespace)
    (ing : Ingress)
    : Except.Related (Follows cfg cs) (buildIngress env ns st ing)
        ((ingressSteps cfg cs ns ing).foldlM (BuildStep.run env cs) hosts) := by
  unfold buildIngress ingressSteps
  rw [h.rdConfig_eq]
  cases classHandled cfg ing with
  | false => exact .ok h
  | true =>
    rw [if_neg (by simp), if_pos rfl, List.foldlM_append, ExceptFold.foldlM_flatMap]
    apply Except.Related.bind
    . apply ExceptFold.foldlM_related _ h
      rintro ⟨db, cs'⟩ hosts rule _ h
      exact h.after_rule env ns ing rule
    . intro st hosts h
      rw [ExceptFold.foldlM_flatMap]
      apply ExceptFold.foldlM_related _ h
      rintro ⟨db, cs'⟩ hosts itls _ h
      exact h.after_tls env ns itls

theorem after_namespace {st : RemapDb × Cluster} (h : Follows cfg cs st hosts) (env : Env) (ns : Namespace)
    : Except.Related (Follows cfg cs) (buildNamespace env st ns)
        ((namespaceSteps cfg cs ns).foldlM (BuildStep.run env cs) hosts) := by
  unfold buildNamespace namespaceSteps
  rw [ExceptFold.foldlM_flatMap]
  apply ExceptFold.foldlM_related _ h
  intro st hosts ing _ h
  exact h.after_ingress env ns ing

end Follows

theorem buildNamespace_namespaceMake (env : Env) (st : RemapDb × Cluster) (name : Str)
    : buildNamespace env st (namespaceMake name) = .ok st := by
  unfold buildNamespace namespaceMake hashValues
  rw [ChainTable.entries_new]
  rfl

theorem foldlM_buildNamespace_extra (env : Env) (st : RemapDb × Cluster)
    (extra l : List (Str × Namespace)) (hextra : ∀ e ∈ extra, e.2 = namespaceMake e.1)
    : ((extra ++ l).map Prod.snd).foldlM (buildNamespace env) st
        =
      (l.map Prod.snd).foldlM (buildNamespace env) st := by
  induction extra with
  | nil => rfl
  | cons e extra ih =>
    rw [List.cons_append, List.map_cons, List.foldlM_cons, hextra e (by simp),
      buildNamespace_namespaceMake, Except.ok_bind]
    apply ih
    intro e he
    apply hextra
    simp [he]

theorem remapDbFromCluster_related (env : Env) (cfg : K8sConfig) (cs : Cluster)
    : Except.Related
        (fun (st : RemapDb × Cluster) hosts =>
          st.1 = ⟨cfg, some cs.csConfig.ccHealthcheck, hosts⟩ ∧ Grown cs st.2)
        (remapDbFromCluster env cfg cs)
        ((clusterSteps cfg cs).foldlM (BuildStep.run env cs) (hashNew 4093)) := by
  have hsteps : clusterSteps cfg cs
      = (List.range cs.csNamespaces.size).flatMap fun i =>
          ((cs.csNamespaces.bucketAt i).map Prod.snd).flatMap (namespaceSteps cfg cs) := by
    unfold clusterSteps hashValues
    rw [ChainTable.entries_eq_flatMap_bucketAt, List.map_flatMap, List.flatMap_assoc]
  have hstart : Follows cfg cs (remapDbNew cfg, cs) (hashNew 4093) := ⟨rfl, rfl, rfl, .refl⟩
  unfold remapDbFromCluster
  rw [hsteps, ExceptFold.foldlM_flatMap, ← bind_pure (List.foldlM _ (hashNew 4093) _)]
  apply Except.Related.bind
  . apply ExceptFold.foldlM_related _ hstart
    intro st hosts i _ h
    rcases h.grown.bucketAt_eq i with ⟨extra, heq, hextra⟩
    rw [heq, foldlM_buildNamespace_extra env st extra _ hextra, ExceptFold.foldlM_flatMap]
    apply ExceptFold.foldlM_related _ h
    intro st hosts ns _ h
    exact h.after_namespace env ns
  . rintro ⟨db, cs'⟩ hosts h
    have hdb : { db with rdHealthcheck := some cs'.csConfig.ccHealthcheck }
        = (⟨cfg, some cs.csConfig.ccHealthcheck, hosts⟩ : RemapDb) := by
      rw [h.grown.csConfig_eq, ← h.rdConfig_eq, ← h.rdHosts_eq]
    exact .ok ⟨hdb, h.grown⟩

theorem foldlM_run_eq_ok_iff (env : Env) (cs : Cluster) (steps : List BuildStep)
    (hosts hosts' : Hash RemapHost)
    : steps.foldlM (BuildStep.run env cs) hosts = .ok hosts'
        ↔
      .noSecretName ∉ steps
        ∧
      KeyedRun.run remapHostNew (fun _ op => op.apply env cs) (steps.filterMap BuildStep.hostOp) hosts
        = .ok hosts' := by
  induction steps generalizing hosts with
  | nil => simp [KeyedRun.run]
  | cons step steps ih =>
    cases step with
    | noSecretName =>
      rw [List.foldlM_cons, BuildStep.run, Except.error_bind]
      simp
    | host hostname op =>
      rw [List.filterMap_cons_some (by rfl), KeyedRun.run, List.foldlM_cons, List.foldlM_cons,
        Except.bind_eq_ok_iff, Except.bind_eq_ok_iff]
      simp only [ih, BuildStep.run, List.mem_cons, reduceCtorEq, false_or]
      constructor
      . rintro ⟨t, ht, hmem, hrun⟩
        exact ⟨hmem, t, ht, hrun⟩
      . rintro ⟨hmem, t, ht, hrun⟩
        exact ⟨t, ht, hmem, hrun⟩

namespace remapDbFromCluster

variable {env : Env} {cfg : K8sConfig} {cs cs' : Cluster} {db : RemapDb}

theorem eq_of_ok (h : remapDbFromCluster env cfg cs = .ok (db, cs'))
    : (clusterSteps cfg cs).foldlM (BuildStep.run env cs) (hashNew 4093) = .ok db.rdHosts
        ∧
      db.rdConfig = cfg
        ∧
      db.rdHealthcheck = some cs.csConfig.ccHealthcheck := by
  rcases remapDbFromCluster_related env cfg cs with ⟨st, hosts, hst, hsteps, hdb, -⟩ | ⟨f, hf, -⟩
  . rw [h] at hst
    cases hst
    dsimp only at hdb
    rw [hdb]
    exact ⟨hsteps, rfl, rfl⟩
  . rw [h] at hf
    cases hf

theorem steps_of_ok (h : remapDbFromCluster env cfg cs = .ok (db, cs'))
    : (clusterSteps cfg cs).foldlM (BuildStep.run env cs) (hashNew 4093) = .ok db.rdHosts := by
  exact (eq_of_ok h).1

theorem getHost_iff (h : remapDbFromCluster env cfg cs = .ok (db, cs')) (hostname : Str)
    (rh : RemapHost)
    : remapDbGetHost db hostname = some rh
        ↔
      opsFor cfg cs hostname ≠ [] ∧ runOps env cs (opsFor cfg cs hostname) remapHostNew = .ok rh := by
  have hrun := ((foldlM_run_eq_ok_iff _ _ _ _ _).mp (steps_of_ok h)).2
  exact KeyedRun.run_new_get _ _ hrun

theorem runOps_of_ok (h : remapDbFromCluster env cfg cs = .ok (db, cs')) {hostname : Str}
    (hops : opsFor cfg cs hostname ≠ [])
    : ∃ rh,
        runOps env cs (opsFor cfg cs hostname) remapHostNew = .ok rh
          ∧
        remapDbGetHost db hostname = some rh := by
  have hrun := ((foldlM_run_eq_ok_iff _ _ _ _ _).mp (steps_of_ok h)).2
  rcases KeyedRun.run_get _ _ hrun hostname with ⟨rh, hrh, -⟩
  rw [ChainTable.get_new, Option.getD_none] at hrh
  exact ⟨rh, hrh, (getHost_iff h hostname rh).mpr ⟨hops, hrh⟩⟩

end remapDbFromCluster

-- An Ingress has the fields that the build reads of it.
structure IngressFields (env : Env) (cs : Cluster) (ns : Namespace) (ing : Ingress) : Prop where
  tls : ∀ itls ∈ ing.inTls, itls.itSecretName.isSome
  rules : ∀ rule ∈ ing.inRules, ∀ host, rule.irHost = some host → clusterDomainForNs cs host ns.nsName →
    ∀ path ∈ rule.irPaths, PathFields env ns ing path

def HostOp.Fields (env : Env) : HostOp → Prop
  | .rule _ ns ing paths => ∀ path ∈ paths, PathFields env ns ing path
  | .tls _ => True

def BuildStep.Fields (env : Env) : BuildStep → Prop
  | .noSecretName => False
  | .host _ op => op.Fields env

theorem pathFields_objects_iff (env : Env) (ns : Namespace) (ing : Ingress) (path : IngressPath)
    : PathFields env ns.objects ing path ↔ PathFields env ns ing path := by
  have hendpoints : ∀ svc, EndpointsFields ns.objects svc path.ipServicePort
      ↔ EndpointsFields ns svc path.ipServicePort := by
    intro svc
    constructor
    . intro h
      exact ⟨h.port, h.type, h.externalName, h.addresses⟩
    . intro h
      exact ⟨h.port, h.type, h.externalName, h.addresses⟩
  unfold PathFields
  simp only [hendpoints]
  rfl

theorem forall_clusterSteps_fields_iff (env : Env) (cfg : K8sConfig) (cs : Cluster)
    : (∀ step ∈ clusterSteps cfg cs, step.Fields env)
        ↔
      ∀ ns ing, Visits cfg cs ns ing → IngressFields env cs ns ing := by
  constructor
  . intro h ns ing hvisits
    constructor
    . intro itls hitls
      by_contra hnone
      rw [Option.not_isSome_iff_eq_none] at hnone
      apply h .noSecretName
      rw [mem_clusterSteps_iff]
      refine ⟨ns, ing, hvisits, .inr ⟨itls, hitls, ?_⟩⟩
      rw [mem_tlsSteps_iff]
      exact .inl ⟨hnone, rfl⟩
    . intro rule hrule host hhost hdom path hpath
      rw [← pathFields_objects_iff]
      apply h (.host host (.rule (defaultSecret cs host) ns.objects ing rule.irPaths)) _ path hpath
      rw [mem_clusterSteps_iff]
      refine ⟨ns, ing, hvisits, .inl ⟨rule, hrule, ?_⟩⟩
      rw [mem_ruleSteps_iff]
      exact ⟨host, hhost, hdom, rfl⟩
  . intro h step hstep
    rw [mem_clusterSteps_iff] at hstep
    rcases hstep with ⟨ns, ing, hvisits, ⟨rule, hrule, hmem⟩ | ⟨itls, hitls, hmem⟩⟩
    . rw [mem_ruleSteps_iff] at hmem
      rcases hmem with ⟨host, hhost, hdom, rfl⟩
      intro path hpath
      rw [pathFields_objects_iff]
      exact (h ns ing hvisits).rules rule hrule host hhost hdom path hpath
    . rw [mem_tlsSteps_iff] at hmem
      rcases hmem with ⟨hnone, -⟩ | ⟨_, _, _, -, -, -, rfl⟩
      . have hsome := (h ns ing hvisits).tls itls hitls
        simp [hnone] at hsome
      . trivial

theorem remapDbFromCluster_returns_iff (env : Env) (cfg : K8sConfig) {cs : Cluster}
    (hports : ∀ ns ∈ hashValues cs.csNamespaces, ∀ svc ∈ hashValues ns.nsServices,
      svc.svType.isSome → svc.svPorts.isSome)
    : Except.Returns (remapDbFromCluster env cfg cs)
        ↔
      ∀ ns ing, Visits cfg cs ns ing → IngressFields env cs ns ing := by
  rw [(remapDbFromCluster_related env cfg cs).returns_iff, ← forall_clusterSteps_fields_iff]
  apply ExceptFold.foldlM_returns_iff
  intro hosts step hstep
  cases step with
  | noSecretName => simp [BuildStep.run, BuildStep.Fields, Except.Returns]
  | host hostname op =>
    dsimp only [BuildStep.run, BuildStep.Fields]
    rw [KeyedRun.upsert_returns_iff]
    cases op with
    | tls secret => simp [HostOp.apply, HostOp.Fields, Except.Returns.ok]
    | rule dflt ns ing paths =>
      rw [← mem_opsFor_iff, rule_mem_opsFor_iff] at hstep
      rcases hstep with ⟨ns', ⟨hns, -⟩, -, -, -, rfl⟩
      apply ExceptFold.foldlM_returns_iff
      intro rh path _
      rw [buildIngressPath_objects, pathFields_objects_iff]
      exact buildIngressPath_returns_iff env cs (hports ns' hns) ing rh path

theorem remapDbFromCluster_returns (env : Env) (cfg : K8sConfig) {cs : Cluster}
    (hfields : ∀ ns ∈ hashValues cs.csNamespaces, HasFields ns)
    (hend : ∀ ns ∈ hashValues cs.csNamespaces, PasswordsEnd ns)
    : Except.Returns (remapDbFromCluster env cfg cs) := by
  rw [remapDbFromCluster_returns_iff]
  . intro ns ing hvisits
    have hns := hfields ns hvisits.1
    constructor
    . exact hns.tls ing hvisits.2.1
    . intro rule hrule host _ _ path hpath
      apply pathFields_of_hasFields hns (hend ns hvisits.1)
      exact hns.paths ing hvisits.2.1 rule hrule path hpath
  . intro ns hns svc hsvc _
    exact ((hfields ns hns).services svc hsvc).2.1
