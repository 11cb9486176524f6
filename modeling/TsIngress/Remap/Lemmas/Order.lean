import TsIngress.Api.Lemmas.History
import TsIngress.Remap.Lemmas.Fields
import TsIngress.Remap.Lemmas.Run

/-!
This module contains how far routing depends on the order in which the objects came into the cluster.
The tables of two histories answer alike, but they list the entries of a bucket in different orders,
and the build takes the Ingresses of a host as they are listed.
-/

structure SameAnswers (ns ns' : Namespace) : Prop where
  nsName_eq : ns.nsName = ns'.nsName
  secret_eq : ∀ name, namespaceGetSecret ns name = namespaceGetSecret ns' name
  service_eq : ∀ name, namespaceGetService ns name = namespaceGetService ns' name
  endpoints_eq : ∀ name, namespaceGetEndpoints ns name = namespaceGetEndpoints ns' name

namespace SameAnswers

variable {ns ns' : Namespace}

theorem remapPathAnnotate_eq (h : SameAnswers ns ns') (env : Env)
    : remapPathAnnotate env ns = remapPathAnnotate env ns' := by
  have hone : remapPathAnnotateOne env ns = remapPathAnnotateOne env ns' := by
    funext rp key value
    unfold remapPathAnnotateOne
    rw [h.secret_eq]
  funext rp annotations
  unfold remapPathAnnotate
  rw [hone]

theorem buildAddEndpoints_eq (h : SameAnswers ns ns') : buildAddEndpoints ns = buildAddEndpoints ns' := by
  funext rp svc portName
  unfold buildAddEndpoints
  rw [h.endpoints_eq]

theorem buildIngressPath_eq (h : SameAnswers ns ns') (env : Env) (cs : Cluster) (ing : Ingress)
    : buildIngressPath env cs ns ing = buildIngressPath env cs ns' ing := by
  funext rh path
  unfold buildIngressPath
  rw [h.remapPathAnnotate_eq env, h.buildAddEndpoints_eq]
  simp only [h.service_eq]

end SameAnswers

-- Two clusters with the same configuration that answer every query alike.
structure SameContents (cs cs' : Cluster) : Prop where
  config_eq : cs.csConfig = cs'.csConfig
  query_eq : ∀ kind ns name, clusterQuery cs kind ns name = clusterQuery cs' kind ns name
  tidy : TidyCluster cs
  tidy' : TidyCluster cs'

structure SameDefaults (cs cs' : Cluster) : Prop where
  config_eq : cs.csConfig = cs'.csConfig
  defaultSecret_eq : ∀ host, defaultSecret cs host = defaultSecret cs' host

def BuildStep.action (env : Env) (cs : Cluster) (step : BuildStep)
    : Option (Str × (RemapHost → Result RemapHost)) :=
  step.hostOp.map fun o => (o.1, o.2.apply env cs)

theorem defaultSecret_eq_clusterQuery (cs : Cluster) (host : Str)
    : defaultSecret cs host
        =
      (clusterGetCertForHostname cs host).bind fun crt =>
        clusterQuery cs .secret crt.crNamespace crt.crName := by
  unfold defaultSecret
  cases clusterGetCertForHostname cs host with
  | none => rfl
  | some crt =>
    rw [Option.bind_some, clusterQuery]
    rw [clusterGetNamespace_fst]
    dsimp only
    cases hashGet cs.csNamespaces crt.crNamespace with
    | none => rfl
    | some ns => rfl

namespace SameContents

variable {cs cs' : Cluster}

theorem sameAnswers (h : SameContents cs cs') (name : Str)
    : SameAnswers (clusterGetNamespace cs name).1 (clusterGetNamespace cs' name).1 where
  nsName_eq := by
    rw [(h.tidy.namespaces name).nsName_eq, (h.tidy'.namespaces name).nsName_eq]
  secret_eq := h.query_eq .secret name
  service_eq := h.query_eq .service name
  endpoints_eq := h.query_eq .endpoints name

theorem sameDefaults (h : SameContents cs cs') : SameDefaults cs cs' where
  config_eq := h.config_eq
  defaultSecret_eq := by
    intro host
    rw [defaultSecret_eq_clusterQuery, defaultSecret_eq_clusterQuery]
    unfold clusterGetCertForHostname
    rw [h.config_eq]
    simp only [h.query_eq]

end SameContents

namespace SameDefaults

variable {cs cs' : Cluster}

theorem clusterDomainForNs_eq (h : SameDefaults cs cs') (host name : Str)
    : clusterDomainForNs cs host name = clusterDomainForNs cs' host name := by
  exact clusterDomainForNs_congr cs cs' host name h.config_eq

section

variable (h : SameDefaults cs cs') (env : Env) {ns ns' : Namespace} (hns : SameAnswers ns ns')

include h hns

theorem map_ruleSteps_eq (ing : Ingress) (rule : IngressRule)
    : (ruleSteps cs ns ing rule).map (BuildStep.action env cs)
        =
      (ruleSteps cs' ns' ing rule).map (BuildStep.action env cs') := by
  have hpath : buildIngressPath env cs ns.objects ing = buildIngressPath env cs' ns'.objects ing := by
    rw [buildIngressPath_objects, buildIngressPath_objects, hns.buildIngressPath_eq env cs ing]
    exact buildIngressPath_congr env h.config_eq ns' ing
  unfold ruleSteps
  cases rule.irHost with
  | none => rw [List.map_nil, List.map_nil]
  | some host =>
    dsimp only
    rw [h.clusterDomainForNs_eq, hns.nsName_eq, h.defaultSecret_eq]
    split
    . simp only [List.map_cons, List.map_nil, BuildStep.action, BuildStep.hostOp, Option.map_some]
      unfold HostOp.apply
      dsimp only
      rw [hpath]
    . rw [List.map_nil, List.map_nil]

theorem map_tlsSteps_eq (itls : IngressTls)
    : (tlsSteps cs ns itls).map (BuildStep.action env cs)
        =
      (tlsSteps cs' ns' itls).map (BuildStep.action env cs') := by
  unfold tlsSteps
  cases itls.itSecretName with
  | none =>
    rw [List.map_singleton, List.map_singleton]
    simp only [BuildStep.action, BuildStep.hostOp, Option.map_none]
  | some name =>
    dsimp only
    rw [hns.secret_eq]
    cases namespaceGetSecret ns' name with
    | none => rw [List.map_nil, List.map_nil]
    | some secret =>
      dsimp only
      simp only [h.clusterDomainForNs_eq, hns.nsName_eq, List.map_map]
      rfl

theorem map_ingressSteps_eq (cfg : K8sConfig) (ing : Ingress)
    : (ingressSteps cfg cs ns ing).map (BuildStep.action env cs)
        =
      (ingressSteps cfg cs' ns' ing).map (BuildStep.action env cs') := by
  unfold ingressSteps
  split
  . rw [List.map_append, List.map_append, List.map_flatMap, List.map_flatMap, List.map_flatMap,
      List.map_flatMap]
    simp only [h.map_ruleSteps_eq env hns, h.map_tlsSteps_eq env hns]
  . rw [List.map_nil, List.map_nil]

end

end SameDefaults

def namedVisits (cs : Cluster) : List (Str × Ingress) :=
  (visitOrder cs).map fun p => (p.1.nsName, p.2)

def actionsOf (env : Env) (cfg : K8sConfig) (cs : Cluster) (v : Str × Ingress)
    : List (Option (Str × (RemapHost → Result RemapHost))) :=
  (ingressSteps cfg cs (clusterGetNamespace cs v.1).1 v.2).map (BuildStep.action env cs)

theorem SameContents.actionsOf_eq {cs cs' : Cluster} (h : SameContents cs cs') (env : Env)
    (cfg : K8sConfig)
    : actionsOf env cfg cs = actionsOf env cfg cs' := by
  funext v
  exact h.sameDefaults.map_ingressSteps_eq env (h.sameAnswers v.1) cfg v.2

theorem mem_visitOrder_iff (cs : Cluster) (p : Namespace × Ingress)
    : p ∈ visitOrder cs ↔ p.1 ∈ hashValues cs.csNamespaces ∧ p.2 ∈ hashValues p.1.nsIngresses := by
  unfold visitOrder
  simp only [List.mem_flatMap, List.mem_map]
  constructor
  . rintro ⟨ns, hns, ing, hing, rfl⟩
    exact ⟨hns, hing⟩
  . rintro ⟨hns, hing⟩
    exact ⟨p.1, hns, p.2, hing, rfl⟩

namespace TidyCluster

variable {cs : Cluster}

theorem map_clusterSteps_eq (h : TidyCluster cs) (env : Env) (cfg : K8sConfig)
    : (clusterSteps cfg cs).map (BuildStep.action env cs) = (namedVisits cs).flatMap (actionsOf env cfg cs) := by
  unfold namedVisits actionsOf
  rw [clusterSteps_eq_flatMap, List.map_flatMap, List.flatMap_map]
  apply List.flatMap_congr
  intro p hp
  rw [h.getNamespace_of_mem ((mem_visitOrder_iff cs p).mp hp).1]

theorem mem_namedVisits_iff (h : TidyCluster cs) (v : Str × Ingress)
    : v ∈ namedVisits cs ↔ clusterQuery cs .ingress v.1 v.2.inName = some v.2 := by
  rcases v with ⟨name, ing⟩
  unfold namedVisits
  rw [List.mem_map]
  constructor
  . rintro ⟨⟨ns, ing'⟩, hp, heq⟩
    cases heq
    rw [mem_visitOrder_iff] at hp
    rcases hp with ⟨hns, hing⟩
    dsimp only at hns hing ⊢
    have hget := h.getNamespace_of_mem hns
    have htidy := h.namespaces ns.nsName
    rw [hget] at htidy
    unfold hashValues at hing
    rw [List.mem_map] at hing
    rcases hing with ⟨⟨key, ing'⟩, hmem, rfl⟩
    have hkey : hashGet ns.nsIngresses key = some ing' := (htidy.unique.mem_entries_iff key ing').mp hmem
    rw [clusterQuery, hget, htidy.inName_eq key ing' hkey]
    exact hkey
  . intro hquery
    dsimp only at hquery
    rw [clusterQuery, clusterGetNamespace_fst] at hquery
    cases hget : hashGet cs.csNamespaces name with
    | none =>
      rw [hget] at hquery
      cases hquery
    | some ns =>
      rw [hget, Option.getD_some] at hquery
      have hname := (h.namespaces name).nsName_eq
      rw [clusterGetNamespace_fst, hget, Option.getD_some] at hname
      refine ⟨(ns, ing), ?_, by rw [hname]⟩
      rw [mem_visitOrder_iff]
      exact ⟨mem_hashValues_of_hashGet hget, mem_hashValues_of_hashGet hquery⟩

end TidyCluster

theorem SameContents.mem_namedVisits_iff {cs cs' : Cluster} (h : SameContents cs cs') (v : Str × Ingress)
    : v ∈ namedVisits cs ↔ v ∈ namedVisits cs' := by
  rw [h.tidy.mem_namedVisits_iff, h.tidy'.mem_namedVisits_iff, h.query_eq]

theorem buildAddEndpoints_returns_congr (ns : Namespace) (svc : Service) (portName : Option Str)
    (rp rp' : RemapPath)
    : Except.Returns (buildAddEndpoints ns rp svc portName)
        ↔
      Except.Returns (buildAddEndpoints ns rp' svc portName) := by
  unfold buildAddEndpoints
  rw [Except.returns_bind_iff, Except.returns_bind_iff]
  apply exists_congr
  intro svType
  apply and_congr_right
  intro _
  split
  . simp only [Except.returns_bind_iff]
    simp [Except.Returns]
  . rw [Except.returns_bind_iff, Except.returns_bind_iff]
    apply exists_congr
    intro port
    apply and_congr_right
    intro _
    cases port with
    | none => exact iff_of_true (.ok _) (.ok _)
    | some port =>
      dsimp only
      cases namespaceGetEndpoints ns svc.svName with
      | none => exact iff_of_true (.ok _) (.ok _)
      | some eps =>
        dsimp only
        rw [ExceptFold.foldlM_returns_iff (fun rp es _ => addSubset_returns_iff port rp es),
          ExceptFold.foldlM_returns_iff (fun rp es _ => addSubset_returns_iff port rp es)]

theorem buildIngressPath_returns_congr (env : Env) (cs : Cluster) (ns : Namespace) (ing : Ingress)
    (path : IngressPath) (rh rh' : RemapHost)
    : Except.Returns (buildIngressPath env cs ns ing rh path)
        ↔
      Except.Returns (buildIngressPath env cs ns ing rh' path) := by
  have hadd : ∀ svc ∈ hashValues ns.nsServices, ∀ rp,
      Except.Returns (buildAddEndpoints ns rp svc path.ipServicePort)
        ↔ Except.Returns (buildAddEndpoints ns remapPathDefault svc path.ipServicePort) := by
    intro svc _ rp
    apply buildAddEndpoints_returns_congr
  rw [buildIngressPath_returns_iff_of env cs ing rh path hadd,
    buildIngressPath_returns_iff_of env cs ing rh' path hadd]

theorem HostOp.apply_returns_congr (env : Env) (cs : Cluster) (op : HostOp) (rh rh' : RemapHost)
    : Except.Returns (op.apply env cs rh) ↔ Except.Returns (op.apply env cs rh') := by
  cases op with
  | tls secret => exact iff_of_true (.ok _) (.ok _)
  | rule dflt ns ing paths =>
    have hpath : ∀ rh : RemapHost, ∀ path ∈ paths,
        (Except.Returns (buildIngressPath env cs ns ing rh path)
          ↔ Except.Returns (buildIngressPath env cs ns ing remapHostNew path)) := by
      intro rh path _
      apply buildIngressPath_returns_congr
    dsimp only [apply]
    rw [ExceptFold.foldlM_returns_iff hpath, ExceptFold.foldlM_returns_iff hpath]

def Completes (action : Option (Str × (RemapHost → Result RemapHost))) : Prop :=
  ∃ o, action = some o ∧ Except.Returns (o.2 remapHostNew)

theorem TidyCluster.build_returns_iff {cs : Cluster} (h : TidyCluster cs) (env : Env) (cfg : K8sConfig)
    : Except.Returns (remapDbFromCluster env cfg cs)
        ↔
      ∀ v ∈ namedVisits cs, ∀ action ∈ actionsOf env cfg cs v, Completes action := by
  have hstep : ∀ hosts : Hash RemapHost, ∀ step ∈ clusterSteps cfg cs,
      (Except.Returns (BuildStep.run env cs hosts step) ↔ Completes (step.action env cs)) := by
    intro hosts step _
    cases step with
    | noSecretName => simp [BuildStep.run, Completes, BuildStep.action, BuildStep.hostOp, Except.Returns]
    | host hostname op =>
      unfold BuildStep.run
      rw [KeyedRun.upsert_returns_iff, HostOp.apply_returns_congr env cs op _ remapHostNew]
      simp [Completes, BuildStep.action, BuildStep.hostOp]
  have hall := h.map_clusterSteps_eq env cfg
  rw [(remapDbFromCluster_related env cfg cs).returns_iff, ExceptFold.foldlM_returns_iff hstep,
    ← List.forall_mem_map (P := Completes), hall]
  simp only [List.mem_flatMap]
  constructor
  . intro hcomplete v hv action haction
    exact hcomplete action ⟨v, hv, haction⟩
  . rintro hcomplete action ⟨v, hv, haction⟩
    exact hcomplete v hv action haction

theorem SameContents.build_returns_iff {cs cs' : Cluster} (h : SameContents cs cs') (env : Env)
    (cfg : K8sConfig)
    : Except.Returns (remapDbFromCluster env cfg cs) ↔ Except.Returns (remapDbFromCluster env cfg cs') := by
  rw [h.tidy.build_returns_iff, h.tidy'.build_returns_iff, h.actionsOf_eq]
  simp only [h.mem_namedVisits_iff]

def Ingress.namesHost (ing : Ingress) (host : Str) : Bool :=
  ing.inRules.any (fun rule => rule.irHost = some host) || ing.inTls.any (fun itls => host ∈ itls.itHosts)

def concerns (cfg : K8sConfig) (cs : Cluster) (host : Str) (v : Str × Ingress) : Bool :=
  classHandled cfg v.2 && clusterDomainForNs cs host v.1 && v.2.namesHost host

def visitsFor (cfg : K8sConfig) (cs : Cluster) (host : Str) : List (Str × Ingress) :=
  (namedVisits cs).filter (concerns cfg cs host)

theorem mem_namedVisits_of_mem_visitsFor {cfg : K8sConfig} {cs : Cluster} {host : Str} {v : Str × Ingress}
    (h : v ∈ visitsFor cfg cs host)
    : v ∈ namedVisits cs := by
  exact List.mem_of_mem_filter h

def actsAt (host : Str) (actions : List (Option (Str × (RemapHost → Result RemapHost))))
    : List (RemapHost → Result RemapHost) :=
  KeyedRun.opsAt host (actions.filterMap id)

theorem map_opsFor_eq_actsAt (env : Env) (cfg : K8sConfig) (cs : Cluster) (host : Str)
    : (opsFor cfg cs host).map (HostOp.apply env cs)
        =
      actsAt host ((clusterSteps cfg cs).map (BuildStep.action env cs)) := by
  unfold opsFor actsAt
  rw [← KeyedRun.opsAt_map, List.map_filterMap, List.filterMap_map]
  rfl

theorem actsAt_flatMap {β : Type} (host : Str)
    (g : β → List (Option (Str × (RemapHost → Result RemapHost)))) (l : List β)
    : actsAt host (l.flatMap g) = l.flatMap fun b => actsAt host (g b) := by
  unfold actsAt
  rw [List.filterMap_flatMap, KeyedRun.opsAt_flatMap]

theorem flatMap_filter_of_nil {p : α → Bool} {g : α → List β} {l : List α}
    (h : ∀ a ∈ l, p a = false → g a = [])
    : (l.filter p).flatMap g = l.flatMap g := by
  induction l with
  | nil => rfl
  | cons a l ih =>
    have hrest := ih (fun b hb => h b (List.mem_cons_of_mem _ hb))
    cases hp : p a with
    | true => rw [List.filter_cons_of_pos hp, List.flatMap_cons, List.flatMap_cons, hrest]
    | false =>
      rw [List.filter_cons_of_neg (by simp [hp]), List.flatMap_cons, h a List.mem_cons_self hp, hrest,
        List.nil_append]

theorem concerns_of_mem_ingressSteps {cfg : K8sConfig} {cs : Cluster} {ns : Namespace} {ing : Ingress}
    {host : Str} {op : HostOp} (h : .host host op ∈ ingressSteps cfg cs ns ing)
    : concerns cfg cs host (ns.nsName, ing) := by
  unfold ingressSteps at h
  unfold concerns Ingress.namesHost
  split at h
  . next hclass =>
    rw [List.mem_append, List.mem_flatMap, List.mem_flatMap] at h
    rcases h with ⟨rule, hrule, h⟩ | ⟨itls, hitls, h⟩
    . rw [mem_ruleSteps_iff] at h
      rcases h with ⟨host', hhost, hdom, heq⟩
      cases heq
      have hany : ing.inRules.any (fun rule => rule.irHost = some host) := by
        rw [List.any_eq_true]
        exact ⟨rule, hrule, by simp [hhost]⟩
      simp [hclass, hdom, hany]
    . rw [mem_tlsSteps_iff] at h
      rcases h with ⟨-, heq⟩ | ⟨name, secret, host', -, -, hmem, heq⟩
      . cases heq
      . cases heq
        have hany : ing.inTls.any (fun itls => host ∈ itls.itHosts) := by
          rw [List.any_eq_true]
          refine ⟨itls, hitls, ?_⟩
          simpa using (List.takeWhile_prefix _).subset hmem
        have hdom : clusterDomainForNs cs host ns.nsName := by
          exact List.mem_takeWhile_imp (p := (clusterDomainForNs cs · ns.nsName)) hmem
        simp [hclass, hdom, hany]
  . cases h

theorem TidyCluster.actsAt_actionsOf_of_not_concerns {cs : Cluster} (h : TidyCluster cs) (env : Env)
    {cfg : K8sConfig} {host : Str} {v : Str × Ingress} (hnot : concerns cfg cs host v = false)
    : actsAt host (actionsOf env cfg cs v) = [] := by
  rw [List.eq_nil_iff_forall_not_mem]
  intro act hact
  unfold actsAt actionsOf at hact
  rw [KeyedRun.mem_opsAt_iff, List.mem_filterMap] at hact
  rcases hact with ⟨action, haction, hsome⟩
  rw [List.mem_map] at haction
  rcases haction with ⟨step, hstep, rfl⟩
  cases step with
  | noSecretName => cases hsome
  | host hostname op =>
    cases hsome
    have hconcerns := concerns_of_mem_ingressSteps hstep
    rw [(h.namespaces v.1).nsName_eq] at hconcerns
    exact absurd hconcerns (by simp [hnot])

theorem TidyCluster.map_opsFor_eq {cs : Cluster} (h : TidyCluster cs) (env : Env) (cfg : K8sConfig)
    (host : Str)
    : (opsFor cfg cs host).map (HostOp.apply env cs)
        =
      (visitsFor cfg cs host).flatMap fun v => actsAt host (actionsOf env cfg cs v) := by
  unfold visitsFor
  rw [map_opsFor_eq_actsAt, h.map_clusterSteps_eq, actsAt_flatMap, flatMap_filter_of_nil]
  intro v _ hnot
  exact h.actsAt_actionsOf_of_not_concerns env hnot

theorem remapDbFromCluster.getHost_eq_iff {env : Env} {cfg : K8sConfig} {cs cs' : Cluster} {db : RemapDb}
    (h : remapDbFromCluster env cfg cs = .ok (db, cs')) (host : Str) (rh : RemapHost)
    : remapDbGetHost db host = some rh
        ↔
      (opsFor cfg cs host).map (HostOp.apply env cs) ≠ []
        ∧ ((opsFor cfg cs host).map (HostOp.apply env cs)).foldlM (fun rh act => act rh) remapHostNew
          = .ok rh := by
  rw [getHost_iff h, List.foldlM_map]
  simp [runOps]

theorem SameContents.getHost_eq {env : Env} {cfg : K8sConfig} {cs cs' csb csb' : Cluster}
    {db db' : RemapDb} (h : SameContents cs cs') {host : Str}
    (horder : visitsFor cfg cs host = visitsFor cfg cs' host)
    (hdb : remapDbFromCluster env cfg cs = .ok (db, csb))
    (hdb' : remapDbFromCluster env cfg cs' = .ok (db', csb'))
    : remapDbGetHost db host = remapDbGetHost db' host := by
  have hacts : (opsFor cfg cs host).map (HostOp.apply env cs)
      = (opsFor cfg cs' host).map (HostOp.apply env cs') := by
    rw [h.tidy.map_opsFor_eq, h.tidy'.map_opsFor_eq, horder, h.actionsOf_eq]
  apply Option.ext
  intro rh
  rw [remapDbFromCluster.getHost_eq_iff hdb, remapDbFromCluster.getHost_eq_iff hdb', hacts]

def bucketOf (name : Str) : Nat :=
  (fnv32 name).toNat % 127

-- The one entry comes before the other whatever the history of the cluster is, or there is no telling.
def ListedBefore (v w : Str × Ingress) : Prop :=
  v ≠ w ∧ bucketOf v.1 ≤ bucketOf w.1 ∧ (v.1 = w.1 → bucketOf v.2.inName ≤ bucketOf w.2.inName)

def Apart (v w : Str × Ingress) : Prop :=
  (v.1 = w.1 → bucketOf v.2.inName ≠ bucketOf w.2.inName) ∧ (v.1 ≠ w.1 → bucketOf v.1 ≠ bucketOf w.1)

theorem ChainTable.UniqueKeys.sorted {t : Hash α} (h : t.UniqueKeys) (hsize : t.size = 127)
    : t.entries.Pairwise fun e e' => e.1 ≠ e'.1 ∧ bucketOf e.1 ≤ bucketOf e'.1 := by
  have hsorted := t.entries_sorted
  rw [hsize] at hsorted
  exact (List.pairwise_map.mp h).and hsorted

theorem TidyNamespace.listed {name : Str} {ns : Namespace} (h : TidyNamespace name ns)
    : ((hashValues ns.nsIngresses).map fun ing => (ns.nsName, ing)).Pairwise ListedBefore := by
  have hname : ∀ e ∈ ns.nsIngresses.entries, e.2.inName = e.1 := by
    intro e he
    exact h.inName_eq e.1 e.2 ((h.unique.mem_entries_iff e.1 e.2).mp he)
  unfold hashValues
  rw [List.map_map, List.pairwise_map]
  apply (h.unique.sorted h.size_eq).imp_of_mem
  intro e e' he he' hsorted
  unfold ListedBefore
  dsimp only [Function.comp]
  rw [hname e he, hname e' he']
  refine ⟨?_, Nat.le_refl _, fun _ => hsorted.2⟩
  intro heq
  apply hsorted.1
  rw [← hname e he, ← hname e' he', (Prod.mk.inj heq).2]

theorem TidyCluster.listed {cs : Cluster} (h : TidyCluster cs) : (namedVisits cs).Pairwise ListedBefore := by
  have hget : ∀ e ∈ cs.csNamespaces.entries, (clusterGetNamespace cs e.1).1 = e.2 := by
    intro e he
    have hkey : hashGet cs.csNamespaces e.1 = some e.2 := (h.unique.mem_entries_iff e.1 e.2).mp he
    rw [clusterGetNamespace_fst, hkey, Option.getD_some]
  have htidy : ∀ e ∈ cs.csNamespaces.entries, TidyNamespace e.1 e.2 := by
    intro e he
    rw [← hget e he]
    exact h.namespaces e.1
  unfold namedVisits visitOrder hashValues
  rw [List.map_flatMap, List.flatMap_map, List.pairwise_flatMap]
  constructor
  . intro e he
    rw [List.map_map]
    exact (htidy e he).listed
  . apply (h.unique.sorted h.size_eq).imp_of_mem
    intro e e' he he' hsorted v hv w hw
    rw [List.map_map, List.mem_map] at hv hw
    rcases hv with ⟨ing, -, rfl⟩
    rcases hw with ⟨ing', -, rfl⟩
    unfold ListedBefore
    dsimp only [Function.comp]
    rw [(htidy e he).nsName_eq, (htidy e' he').nsName_eq]
    refine ⟨?_, hsorted.2, fun heq => absurd heq hsorted.1⟩
    intro heq
    exact hsorted.1 (Prod.mk.inj heq).1

theorem not_apart_of_listedBefore {v w : Str × Ingress} (hvw : ListedBefore v w) (hwv : ListedBefore w v)
    : ¬ Apart v w := by
  rintro ⟨hsame, hother⟩
  rcases hvw with ⟨-, hns, hing⟩
  rcases hwv with ⟨-, hns', hing'⟩
  by_cases heq : v.1 = w.1
  . exact hsame heq (Nat.le_antisymm (hing heq) (hing' heq.symm))
  . exact hother heq (Nat.le_antisymm hns hns')

theorem SameContents.visitsFor_eq {cs cs' : Cluster} (h : SameContents cs cs') {cfg : K8sConfig} {host : Str}
    (hapart : ∀ v ∈ visitsFor cfg cs host, ∀ w ∈ visitsFor cfg cs host, v ≠ w → Apart v w)
    : visitsFor cfg cs host = visitsFor cfg cs' host := by
  have hconcerns : concerns cfg cs host = concerns cfg cs' host := by
    funext v
    unfold concerns
    rw [h.sameDefaults.clusterDomainForNs_eq]
  have hlisted : (visitsFor cfg cs host).Pairwise ListedBefore := h.tidy.listed.filter _
  have hlisted' : (visitsFor cfg cs' host).Pairwise ListedBefore := h.tidy'.listed.filter _
  have hmem : ∀ v, v ∈ visitsFor cfg cs host ↔ v ∈ visitsFor cfg cs' host := by
    intro v
    unfold visitsFor
    rw [List.mem_filter, List.mem_filter, h.mem_namedVisits_iff, hconcerns]
  have hperm : (visitsFor cfg cs host).Perm (visitsFor cfg cs' host) := by
    rw [List.perm_ext_iff_of_nodup (hlisted.imp And.left) (hlisted'.imp And.left)]
    exact hmem
  apply List.Perm.eq_of_pairwise _ hlisted hlisted' hperm
  intro v w hv hw hvw hwv
  exact absurd (hapart v hv w ((hmem w).mpr hw) hvw.1) (not_apart_of_listedBefore hvw hwv)

-- The databases are both built or both not, and give the request the same code and the same path.
def RoutesAlike (env : Env) (cfg : K8sConfig) (cs cs' : Cluster) (req : RemapRequest) : Prop :=
  (Except.Returns (remapDbFromCluster env cfg cs) ↔ Except.Returns (remapDbFromCluster env cfg cs'))
    ∧
  ∀ db csb db' csb', remapDbFromCluster env cfg cs = .ok (db, csb) →
    remapDbFromCluster env cfg cs' = .ok (db', csb') →
      ∀ rnd rnd', Except.Related SameAnswer (remapRun env db req rnd) (remapRun env db' req rnd')

/--
Clusters with the same contents route a request alike if they list the Ingresses that concern its host
in the same order.
-/
theorem remapRun_routesAlike (env : Env) (cfg : K8sConfig) (config : ClusterConfig)
    (history history' : List StoreOp)
    (hquery : ∀ kind ns name, clusterQuery (clusterAfter config history) kind ns name
      = clusterQuery (clusterAfter config history') kind ns name)
    (req : RemapRequest)
    (horder : ∀ host, req.rrHost = some host →
      visitsFor cfg (clusterAfter config history) host = visitsFor cfg (clusterAfter config history') host)
    : RoutesAlike env cfg (clusterAfter config history) (clusterAfter config history') req := by
  have hsame : SameContents (clusterAfter config history) (clusterAfter config history') := by
    refine ⟨?_, hquery, .after config history, .after config history'⟩
    rw [csConfig_clusterAfter, csConfig_clusterAfter]
  refine ⟨hsame.build_returns_iff env cfg, ?_⟩
  intro db csb db' csb' hdb hdb' rnd rnd'
  have hhealth : db.rdHealthcheck = db'.rdHealthcheck := by
    rw [(remapDbFromCluster.eq_of_ok hdb).2.2, (remapDbFromCluster.eq_of_ok hdb').2.2, hsame.config_eq]
  have hhost : ∀ host, req.rrHost = some host → remapDbGetHost db host = remapDbGetHost db' host := by
    intro host hreq
    exact hsame.getHost_eq (horder host hreq) hdb hdb'
  rw [remapRun.congr hhealth hhost rnd]
  apply remapRun.sameAnswer

def openIngress (name : String) : Ingress where
  inName := str name
  inNamespace := str "default"
  inTls := []
  inRules := [⟨some (str "foo.com"), [⟨some (str "/"), some (str "web"), some (str "443")⟩]⟩]
  inAnnotations := hashNew 127

def adminIngress : Ingress where
  inName := str "admin"
  inNamespace := str "default"
  inTls := []
  inRules := [⟨some (str "foo.com"), [⟨some (str "/admin"), some (str "web"), some (str "443")⟩]⟩]
  inAnnotations := hashSet (hashSet (hashNew 127) inAuthType (str "basic")) inAuthRealm (str "admin")

def appliedOnce (name : String) : List StoreOp :=
  [.put .service (str "default") externalService, .put .ingress (str "default") adminIngress,
    .put .ingress (str "default") (openIngress name)]

def appliedAgain (name : String) : List StoreOp :=
  appliedOnce name ++ [.put .ingress (str "default") adminIngress]

theorem clusterQuery_adminIngress (config : ClusterConfig) {name : String} (hname : str name ≠ str "admin")
    : clusterQuery (clusterAfter config (appliedOnce name)) .ingress (str "default")
          (ResourceKind.ingress.nameOf adminIngress)
        =
      some adminIngress := by
  unfold clusterAfter appliedOnce
  simp only [List.foldl_cons, List.foldl_nil, StoreOp.apply]
  rw [clusterQuery_put _ .ingress, if_neg (fun h => hname h.2), clusterQuery_put _ .ingress,
    if_pos ⟨rfl, rfl⟩]

theorem clusterQuery_applied (config : ClusterConfig) {name : String} (hname : str name ≠ str "admin")
    (kind : ResourceKind) (ns name' : Str)
    : clusterQuery (clusterAfter config (appliedOnce name)) kind ns name'
        =
      clusterQuery (clusterAfter config (appliedAgain name)) kind ns name' := by
  unfold appliedAgain
  rw [clusterAfter_concat]
  exact (clusterQuery_put_again (clusterQuery_adminIngress config hname) kind ns name').symm

theorem mem_namedVisits_appliedOnce {config : ClusterConfig} {name : String} {v : Str × Ingress}
    (hv : v ∈ namedVisits (clusterAfter config (appliedOnce name)))
    : v = (str "default", adminIngress) ∨ v = (str "default", openIngress name) := by
  rw [(TidyCluster.after config (appliedOnce name)).mem_namedVisits_iff] at hv
  unfold clusterAfter appliedOnce at hv
  simp only [List.foldl_cons, List.foldl_nil, StoreOp.apply] at hv
  rw [clusterQuery_put _ .ingress] at hv
  split at hv
  . next h =>
    right
    rw [h.1, Option.some.inj hv]
  . rw [clusterQuery_put _ .ingress] at hv
    split at hv
    . next h =>
      left
      rw [h.1, Option.some.inj hv]
    . rw [clusterQuery_put_of_ne _ .service _ _ (by decide)] at hv
      cases hv

theorem sameContents_applied {name : String} (hname : str name ≠ str "admin")
    : SameContents (clusterAfter clusterConfigNew (appliedOnce name))
        (clusterAfter clusterConfigNew (appliedAgain name)) := by
  refine ⟨?_, clusterQuery_applied clusterConfigNew hname, .after _ _, .after _ _⟩
  rw [csConfig_clusterAfter, csConfig_clusterAfter]

theorem apart_applied {config : ClusterConfig} {name : String}
    (hbucket : bucketOf (openIngress name).inName ≠ bucketOf adminIngress.inName) {v w : Str × Ingress}
    (hv : v ∈ namedVisits (clusterAfter config (appliedOnce name)))
    (hw : w ∈ namedVisits (clusterAfter config (appliedOnce name))) (hne : v ≠ w)
    : Apart v w := by
  have hcases := mem_namedVisits_appliedOnce hv
  have hcases' := mem_namedVisits_appliedOnce hw
  unfold Apart
  rcases hcases with h | h
  . rcases hcases' with h' | h'
    . exact absurd (h.trans h'.symm) hne
    . rw [h, h']
      exact ⟨fun _ => hbucket.symm, fun hns => absurd rfl hns⟩
  . rcases hcases' with h' | h'
    . rw [h, h']
      exact ⟨fun _ => hbucket, fun hns => absurd rfl hns⟩
    . exact absurd (h.trans h'.symm) hne

-- The names `admin` and `home` are in different buckets.
theorem remapRun_routesAlike_home
    : RoutesAlike plainEnv anyClass (clusterAfter clusterConfigNew (appliedOnce "home"))
        (clusterAfter clusterConfigNew (appliedAgain "home")) (getRequest (str "admin")) := by
  have hname : str "home" ≠ str "admin" := by
    decide
  have hbucket : bucketOf (openIngress "home").inName ≠ bucketOf adminIngress.inName := by
    decide +kernel
  apply remapRun_routesAlike plainEnv anyClass clusterConfigNew (appliedOnce "home") (appliedAgain "home")
    (clusterQuery_applied clusterConfigNew hname)
  intro host _
  apply (sameContents_applied hname).visitsFor_eq
  intro v hv w hw hne
  exact apart_applied hbucket (mem_namedVisits_of_mem_visitsFor hv) (mem_namedVisits_of_mem_visitsFor hw) hne

def adminCode (history : List StoreOp) : Result RR := do
  let (db, _) ← remapDbFromCluster plainEnv anyClass (clusterAfter clusterConfigNew history)
  let (r, _) ← remapRun plainEnv db (getRequest (str "admin")) 0
  return r

theorem RoutesAlike.adminCode_eq {history history' : List StoreOp}
    (h : RoutesAlike plainEnv anyClass (clusterAfter clusterConfigNew history)
      (clusterAfter clusterConfigNew history') (getRequest (str "admin")))
    {r r' : RR} (hr : adminCode history = .ok r) (hr' : adminCode history' = .ok r')
    : r = r' := by
  unfold adminCode at hr hr'
  rw [Except.bind_eq_ok_iff] at hr hr'
  rcases hr with ⟨⟨db, csb⟩, hdb, hr⟩
  rcases hr' with ⟨⟨db', csb'⟩, hdb', hr'⟩
  rw [Except.bind_eq_ok_iff] at hr hr'
  rcases hr with ⟨⟨c, res⟩, hrun, hr⟩
  rcases hr' with ⟨⟨c', res'⟩, hrun', hr'⟩
  cases hr
  cases hr'
  rcases h.2 db csb db' csb' hdb hdb' 0 0 with ⟨a, a', ha, ha', hsame⟩ | ⟨e, he, -⟩
  . cases hrun.symm.trans ha
    cases hrun'.symm.trans ha'
    exact hsame.1
  . cases hrun.symm.trans he

-- The names `admin` and `mail` share a bucket. Applying the one Ingress again, unchanged, moves it to
-- the front, and what was open to everybody asks for a password.
theorem not_remapRun_routesAlike
    : ¬ ∀ (env : Env) (cfg : K8sConfig) (config : ClusterConfig) (history history' : List StoreOp),
        (∀ kind ns name, clusterQuery (clusterAfter config history) kind ns name
          = clusterQuery (clusterAfter config history') kind ns name) →
          ∀ req, RoutesAlike env cfg (clusterAfter config history) (clusterAfter config history') req := by
  intro h
  have hname : str "mail" ≠ str "admin" := by
    decide
  have halike := h plainEnv anyClass clusterConfigNew (appliedOnce "mail") (appliedAgain "mail")
    (clusterQuery_applied clusterConfigNew hname) (getRequest (str "admin"))
  have honce : adminCode (appliedOnce "mail") = .ok .ok := by
    decide +kernel
  have hagain : adminCode (appliedAgain "mail") = .ok .errUnauthorized := by
    decide +kernel
  cases halike.adminCode_eq honce hagain
