import TsIngress.Remap.Lemmas.Build

/-!
This module contains the proof that the targets of a database are those that the path entries of the
cluster ask for.
-/

structure PathEntry (cfg : K8sConfig) (cs : Cluster) (host : Str) (ns : Namespace) (ing : Ingress)
    (path : IngressPath) (svc : Service) : Prop where
  visits : Visits cfg cs ns ing
  rule : ∃ rule ∈ ing.inRules, rule.irHost = some host ∧ path ∈ rule.irPaths
  permitted : clusterDomainForNs cs host ns.nsName
  found : ∃ name, path.ipServiceName = some name ∧ namespaceGetService ns name = some svc

def RoutesAt (path : IngressPath) (i : Nat) (rp : RemapPath) : Prop :=
  match path.ipPath with
  | none => i = 0
  | some p => 0 < i ∧ rp.rpRegex = some (remapPathPattern p)

theorem remapPathNew_some {env : Env} {p : Str} {rp : RemapPath}
    (h : remapPathNew env (some p) = some rp)
    : rp.rpRegex = some (remapPathPattern p) ∧ rp.rpAddrs = [] := by
  rw [(remapPathNew_eq_some h).1]
  exact ⟨rfl, rfl⟩

def TargetsFrom (P : Nat → RemapPath → RemapTarget → Prop) (rh : RemapHost) : Prop :=
  ∀ (i : Nat) (rp : RemapPath), rh.rhPaths[i]? = some rp → ∀ t ∈ rp.rpAddrs, P i rp t

def Origin (cfg : K8sConfig) (cs : Cluster) (host : Str) (i : Nat) (rp : RemapPath) (t : RemapTarget)
    : Prop :=
  ∃ ns ing path svc,
    PathEntry cfg cs host ns ing path svc
      ∧
    RoutesAt path i rp
      ∧
    ServiceTarget ns svc path.ipServicePort t

-- The targets know their path by its pattern, and the default path by its position.
theorem Origin.congr {cfg : K8sConfig} {cs : Cluster} {host : Str} {i : Nat} {rp rp' : RemapPath}
    {t : RemapTarget} (h : Origin cfg cs host i rp t) (hregex : rp'.rpRegex = rp.rpRegex)
    : Origin cfg cs host i rp' t := by
  rcases h with ⟨ns, ing, path, svc, hentry, hroute, ht⟩
  refine ⟨ns, ing, path, svc, hentry, ?_, ht⟩
  unfold RoutesAt at hroute ⊢
  rwa [hregex]

theorem PathStep.targetsFrom {env : Env} {cfg : K8sConfig} {cs : Cluster} {host : Str}
    {ns : Namespace} {ing : Ingress} {path : IngressPath} {rh rh' : RemapHost}
    (hstep : PathStep env cs ns ing path rh rh')
    (hentry : ∀ svc, (∃ name, path.ipServiceName = some name ∧ namespaceGetService ns name = some svc) →
      PathEntry cfg cs host ns ing path svc)
    (h : TargetsFrom (Origin cfg cs host) rh)
    : TargetsFrom (Origin cfg cs host) rh' := by
  cases hstep with
  | skip heq _ =>
    rw [heq]
    exact h
  | default name svc hname hsvc hpath rp rp' hrp hconf hpaths _ _ =>
    rcases hconf with ⟨hregex, ts, haddrs, hts⟩
    intro i rp1 hrp1 t ht
    rw [hpaths] at hrp1
    by_cases hi : i = 0
    . subst hi
      rw [List.getElem?_set_self rh.length_rhPaths_pos, Option.some.injEq] at hrp1
      subst hrp1
      rw [haddrs, List.mem_append] at ht
      rcases ht with ht | ht
      . exact (h 0 rp hrp t ht).congr hregex
      . refine ⟨ns, ing, path, svc, hentry svc ⟨name, hname, hsvc⟩, ?_, (hts t).mp ht⟩
        simp [RoutesAt, hpath]
    . rw [List.getElem?_set_ne (Ne.symm hi)] at hrp1
      exact h i rp1 hrp1 t ht
  | new name svc hname hsvc p hpath rp rp' hrp hconf hpaths _ _ =>
    rcases hconf with ⟨hregex, ts, haddrs, hts⟩
    rcases remapPathNew_some hrp with ⟨hpat, hnil⟩
    intro i rp1 hrp1 t ht
    rw [hpaths] at hrp1
    rcases Nat.lt_or_ge i rh.rhPaths.length with hi | hi
    . rw [List.getElem?_append_left hi] at hrp1
      exact h i rp1 hrp1 t ht
    . rw [List.getElem?_append_right hi, List.getElem?_singleton] at hrp1
      split at hrp1
      . cases hrp1
        rw [haddrs, hnil, List.nil_append] at ht
        refine ⟨ns, ing, path, svc, hentry svc ⟨name, hname, hsvc⟩, ?_, (hts t).mp ht⟩
        have hpos := rh.length_rhPaths_pos
        simp only [RoutesAt, hpath, hregex, hpat, and_true]
        omega
      . cases hrp1

theorem RemapHost.rhPaths_attachDefault (env : Env) (dflt : Option Secret) (rh : RemapHost)
    : (rh.attachDefault env dflt).rhPaths = rh.rhPaths := by
  unfold attachDefault
  cases dflt <;> rfl

theorem HostOp.targetsFrom {env : Env} {cfg : K8sConfig} {cs : Cluster} {host : Str} {op : HostOp}
    {rh rh' : RemapHost} (hop : op ∈ opsFor cfg cs host) (happly : op.apply env cs rh = .ok rh')
    (h : TargetsFrom (Origin cfg cs host) rh)
    : TargetsFrom (Origin cfg cs host) rh' := by
  cases op with
  | rule dflt ns ing paths =>
    rw [rule_mem_opsFor_iff] at hop
    rcases hop with ⟨ns, hvisits, hdom, ⟨rule, hrule, hhost, rfl⟩, rfl, rfl⟩
    dsimp only [apply] at happly
    rw [buildIngressPath_objects] at happly
    apply ExceptFold.foldlM_invariant (P := TargetsFrom (Origin cfg cs host)) _ _ happly
    . intro rh path rh' hpath h hstep
      apply (buildIngressPath_pathStep hstep).targetsFrom _ h
      intro svc hfound
      exact ⟨hvisits, ⟨rule, hrule, hhost, hpath⟩, hdom, hfound⟩
    . unfold TargetsFrom
      rw [RemapHost.rhPaths_attachDefault]
      exact h
  | tls secret =>
    cases happly
    exact h

theorem targetsFrom_remapHostNew (P : Nat → RemapPath → RemapTarget → Prop)
    : TargetsFrom P remapHostNew := by
  intro i rp hrp t ht
  have hmem := List.mem_of_getElem? hrp
  unfold remapHostNew at hmem
  rw [List.mem_singleton] at hmem
  rw [hmem] at ht
  cases ht

def Extends (rh rh' : RemapHost) : Prop :=
  ∀ (i : Nat) (rp : RemapPath), rh.rhPaths[i]? = some rp →
    ∃ rp' : RemapPath, rh'.rhPaths[i]? = some rp' ∧ rp'.rpRegex = rp.rpRegex ∧ ∀ t ∈ rp.rpAddrs, t ∈ rp'.rpAddrs

namespace Extends

theorem refl (rh : RemapHost) : Extends rh rh := by
  intro i rp hrp
  exact ⟨rp, hrp, rfl, fun t ht => ht⟩

theorem of_rhPaths_eq {rh rh' : RemapHost} (h : rh'.rhPaths = rh.rhPaths) : Extends rh rh' := by
  unfold Extends
  rw [h]
  exact refl rh

theorem trans {rh rh' rh'' : RemapHost} (h : Extends rh rh') (h' : Extends rh' rh'')
    : Extends rh rh'' := by
  intro i rp hrp
  rcases h i rp hrp with ⟨rp', hrp', hregex, hsub⟩
  rcases h' i rp' hrp' with ⟨rp'', hrp'', hregex', hsub'⟩
  exact ⟨rp'', hrp'', hregex'.trans hregex, fun t ht => hsub' t (hsub t ht)⟩

end Extends

theorem PathStep.extends {env : Env} {cs : Cluster} {ns : Namespace} {ing : Ingress}
    {path : IngressPath} {rh rh' : RemapHost} (hstep : PathStep env cs ns ing path rh rh')
    : Extends rh rh' := by
  cases hstep with
  | skip heq _ =>
    rw [heq]
    exact Extends.refl rh
  | default name svc hname hsvc hpath rp rp' hrp hconf hpaths _ _ =>
    rcases hconf with ⟨hregex, ts, haddrs, -⟩
    intro i rp1 hrp1
    rw [hpaths]
    by_cases hi : i = 0
    . subst hi
      rw [hrp1, Option.some.injEq] at hrp
      subst hrp
      refine ⟨rp', List.getElem?_set_self rh.length_rhPaths_pos, hregex, ?_⟩
      intro t ht
      rw [haddrs]
      exact List.mem_append_left _ ht
    . refine ⟨rp1, ?_, rfl, fun t ht => ht⟩
      rw [List.getElem?_set_ne (Ne.symm hi)]
      exact hrp1
  | new name svc hname hsvc p hpath rp rp' hrp hconf hpaths _ _ =>
    intro i rp1 hrp1
    rw [hpaths]
    refine ⟨rp1, ?_, rfl, fun t ht => ht⟩
    rcases List.getElem?_eq_some_iff.mp hrp1 with ⟨hi, -⟩
    rw [List.getElem?_append_left hi]
    exact hrp1

theorem HostOp.extends {env : Env} {cs : Cluster} {op : HostOp} {rh rh' : RemapHost}
    (happly : op.apply env cs rh = .ok rh')
    : Extends rh rh' := by
  cases op with
  | rule dflt ns ing paths =>
    apply (Extends.of_rhPaths_eq (rh.rhPaths_attachDefault env dflt)).trans
    apply ExceptFold.foldlM_invariant (P := Extends (rh.attachDefault env dflt)) _ _ happly
    . intro rh1 path rh2 _ h hstep
      exact h.trans (buildIngressPath_pathStep hstep).extends
    . exact Extends.refl _
  | tls secret =>
    cases happly
    exact Extends.of_rhPaths_eq rfl

def HasTargets (ns : Namespace) (path : IngressPath) (svc : Service) (rh : RemapHost) : Prop :=
  ∃ (i : Nat) (rp : RemapPath), rh.rhPaths[i]? = some rp ∧ RoutesAt path i rp
    ∧ ∀ t, ServiceTarget ns svc path.ipServicePort t → t ∈ rp.rpAddrs

theorem HasTargets.of_extends {ns : Namespace} {path : IngressPath} {svc : Service}
    {rh rh' : RemapHost} (h : HasTargets ns path svc rh) (hext : Extends rh rh')
    : HasTargets ns path svc rh' := by
  rcases h with ⟨i, rp, hrp, hroute, ht⟩
  rcases hext i rp hrp with ⟨rp', hrp', hregex, hsub⟩
  refine ⟨i, rp', hrp', ?_, fun t h => hsub t (ht t h)⟩
  unfold RoutesAt at hroute ⊢
  rwa [hregex]

theorem PathStep.hasTargets {env : Env} {cs : Cluster} {ns : Namespace} {ing : Ingress}
    {path : IngressPath} {rh rh' : RemapHost} (hstep : PathStep env cs ns ing path rh rh')
    {svc : Service} (hfound : ∃ name, path.ipServiceName = some name ∧ namespaceGetService ns name = some svc)
    (haccepted : path.ipPath = none ∨ (remapPathNew env path.ipPath).isSome)
    : HasTargets ns path svc rh' := by
  rcases hfound with ⟨name, hname, hsvc⟩
  cases hstep with
  | skip heq hwhy =>
    rcases hwhy name svc hname hsvc with ⟨p, hpath, hnew⟩
    simp [hpath, hnew] at haccepted
  | default name' svc' hname' hsvc' hpath rp rp' hrp hconf hpaths _ _ =>
    rw [hname] at hname'
    cases hname'
    rw [hsvc] at hsvc'
    cases hsvc'
    rcases hconf with ⟨hregex, ts, haddrs, hts⟩
    refine ⟨0, rp', ?_, by simp [RoutesAt, hpath], ?_⟩
    . rw [hpaths]
      exact List.getElem?_set_self rh.length_rhPaths_pos
    . intro t ht
      rw [haddrs]
      exact List.mem_append_right _ ((hts t).mpr ht)
  | new name' svc' hname' hsvc' p hpath rp rp' hrp hconf hpaths _ _ =>
    rw [hname] at hname'
    cases hname'
    rw [hsvc] at hsvc'
    cases hsvc'
    rcases hconf with ⟨hregex, ts, haddrs, hts⟩
    rcases remapPathNew_some hrp with ⟨hpat, -⟩
    refine ⟨rh.rhPaths.length, rp', ?_, ?_, ?_⟩
    . rw [hpaths]
      simp
    . simp only [RoutesAt, hpath, hregex, hpat, and_true]
      exact rh.length_rhPaths_pos
    . intro t ht
      rw [haddrs]
      exact List.mem_append_right _ ((hts t).mpr ht)

theorem HostOp.hasTargets {env : Env} {cs : Cluster} {dflt : Option Secret} {ns : Namespace}
    {ing : Ingress} {paths : List IngressPath} {path : IngressPath} {svc : Service}
    {rh rh' : RemapHost} (happly : (HostOp.rule dflt ns.objects ing paths).apply env cs rh = .ok rh')
    (hpath : path ∈ paths)
    (hfound : ∃ name, path.ipServiceName = some name ∧ namespaceGetService ns name = some svc)
    (haccepted : path.ipPath = none ∨ (remapPathNew env path.ipPath).isSome)
    : HasTargets ns path svc rh' := by
  dsimp only [apply] at happly
  rw [buildIngressPath_objects] at happly
  apply ExceptFold.foldlM_establish (P := HasTargets ns path svc) hpath _ _ happly
  . intro rh rh' hstep
    exact (buildIngressPath_pathStep hstep).hasTargets hfound haccepted
  . intro rh other rh' _ h hstep
    exact h.of_extends (buildIngressPath_pathStep hstep).extends

namespace remapDbFromCluster

variable {env : Env} {cfg : K8sConfig} {cs cs' : Cluster} {db : RemapDb}

theorem origin_of_mem (h : remapDbFromCluster env cfg cs = .ok (db, cs')) {host : Str}
    {rh : RemapHost} (hget : remapDbGetHost db host = some rh)
    : TargetsFrom (Origin cfg cs host) rh := by
  rw [getHost_iff h] at hget
  apply ExceptFold.foldlM_invariant (P := TargetsFrom (Origin cfg cs host)) _ _ hget.2
  . intro rh op rh' hop h happly
    exact HostOp.targetsFrom hop happly h
  . apply targetsFrom_remapHostNew

theorem hasTargets_of_entry (h : remapDbFromCluster env cfg cs = .ok (db, cs')) {host : Str}
    {ns : Namespace} {ing : Ingress} {path : IngressPath} {svc : Service}
    (hentry : PathEntry cfg cs host ns ing path svc)
    (haccepted : path.ipPath = none ∨ (remapPathNew env path.ipPath).isSome)
    : ∃ rh, remapDbGetHost db host = some rh ∧ HasTargets ns path svc rh := by
  rcases hentry with ⟨hvisits, ⟨rule, hrule, hhost, hpath⟩, hdom, hfound⟩
  have hmem : .rule (defaultSecret cs host) ns.objects ing rule.irPaths ∈ opsFor cfg cs host := by
    rw [rule_mem_opsFor_iff]
    exact ⟨ns, hvisits, hdom, ⟨rule, hrule, hhost, rfl⟩, rfl, rfl⟩
  rcases runOps_of_ok h (List.ne_nil_of_mem hmem) with ⟨rh, hrun, hget⟩
  refine ⟨rh, hget, ?_⟩
  apply ExceptFold.foldlM_establish (P := HasTargets ns path svc) hmem _ _ hrun
  . intro rh rh' happly
    exact HostOp.hasTargets happly hpath hfound haccepted
  . intro rh op rh' _ h happly
    exact h.of_extends (HostOp.extends happly)

end remapDbFromCluster

/--
Every target of a database comes from a path entry that may use the host, and every target of such an
entry is in the path that is for it. A cluster with all its fields has a database, unless a password
file keeps the build in its loop.
-/
theorem remapDbFromCluster_targets (env : Env) (cfg : K8sConfig) (cs : Cluster)
    : (∀ db cs', remapDbFromCluster env cfg cs = .ok (db, cs') →
        (∀ host rh, remapDbGetHost db host = some rh → TargetsFrom (Origin cfg cs host) rh)
          ∧
        (∀ host ns ing path svc, PathEntry cfg cs host ns ing path svc →
          path.ipPath = none ∨ (remapPathNew env path.ipPath).isSome →
          ∃ rh, remapDbGetHost db host = some rh ∧ HasTargets ns path svc rh))
        ∧
      ((∀ ns ∈ hashValues cs.csNamespaces, HasFields ns) →
        (∀ ns ∈ hashValues cs.csNamespaces, PasswordsEnd ns) →
        ∃ db cs', remapDbFromCluster env cfg cs = .ok (db, cs')) := by
  refine ⟨?_, ?_⟩
  . intro db cs' h
    refine ⟨fun host rh hget => remapDbFromCluster.origin_of_mem h hget, ?_⟩
    intro host ns ing path svc hentry haccepted
    exact remapDbFromCluster.hasTargets_of_entry h hentry haccepted
  . intro hfields hend
    rcases remapDbFromCluster_returns env cfg hfields hend with ⟨⟨db, cs'⟩, h⟩
    exact ⟨db, cs', h⟩

def webService : Service where
  svName := str "web"
  svNamespace := str "default"
  svType := some (str "ClusterIP")
  svPorts := some (hashSet (hashNew 127) (str "http") ⟨str "http", 80, 80, .tcp⟩)

def webEndpoints : Endpoints where
  epName := str "web"
  epNamespace := str "default"
  epSubsets :=
    [⟨[⟨some (str "10.1.2.3"), none⟩],
      hashSet (hashNew 7) (str "http") ⟨str "http", 8080, str "TCP"⟩⟩]

def webPath : IngressPath where
  ipPath := none
  ipServiceName := some (str "web")
  ipServicePort := some (str "http")

def webIngress : Ingress where
  inName := str "web"
  inNamespace := str "default"
  inTls := []
  inRules := [⟨some (str "foo.com"), [webPath]⟩]
  inAnnotations := hashNew 127

def webNamespace : Namespace where
  nsName := str "default"
  nsIngresses := hashSet (hashNew 127) (str "web") webIngress
  nsSecrets := hashNew 127
  nsServices := hashSet (hashNew 127) (str "web") webService
  nsEndpointses := hashSet (hashNew 127) (str "web") webEndpoints

def webCluster : Cluster :=
  { clusterMake with csNamespaces := hashSet (hashNew 127) (str "default") webNamespace }

theorem webEntry : PathEntry anyClass webCluster (str "foo.com") webNamespace webIngress webPath webService where
  visits := by
    refine ⟨?_, ?_, rfl⟩
    . simp [webCluster, hashValues_singleton]
    . simp [webNamespace, hashValues_singleton]
  rule := ⟨⟨some (str "foo.com"), [webPath]⟩, by simp [webIngress], rfl, by simp⟩
  permitted := rfl
  found := ⟨str "web", rfl, by simp [namespaceGetService, webNamespace]⟩

theorem hasFields_webCluster : ∀ ns ∈ hashValues webCluster.csNamespaces, HasFields ns := by
  intro ns hns
  simp only [webCluster, hashValues_singleton, List.mem_singleton] at hns
  subst hns
  constructor <;> simp [webNamespace, hashValues_singleton, webIngress, webPath, webService, webEndpoints]
  decide

theorem passwordsEnd_webCluster : ∀ ns ∈ hashValues webCluster.csNamespaces, PasswordsEnd ns := by
  intro ns hns
  simp only [webCluster, hashValues_singleton, List.mem_singleton] at hns
  subst hns
  simp [PasswordsEnd, webNamespace, hashValues]

theorem remapDbFromCluster_targets_web
    : ∃ db cs' rh, remapDbFromCluster plainEnv anyClass webCluster = .ok (db, cs')
        ∧
      remapDbGetHost db (str "foo.com") = some rh
        ∧
      HasTargets webNamespace webPath webService rh
        ∧
      ServiceTarget webNamespace webService webPath.ipServicePort ⟨str "10.1.2.3", 8080⟩ := by
  rcases (remapDbFromCluster_targets plainEnv anyClass webCluster).2 hasFields_webCluster
    passwordsEnd_webCluster with ⟨db, cs', h⟩
  rcases ((remapDbFromCluster_targets plainEnv anyClass webCluster).1 db cs' h).2 _ _ _ _ _ webEntry (.inl rfl)
    with ⟨rh, hget, htargets⟩
  refine ⟨db, cs', rh, h, hget, htargets, .inr ⟨by decide, ?_⟩⟩
  refine ⟨⟨str "http", 80, 80, .tcp⟩, webEndpoints, ?_, ?_, ?_⟩
  . unfold serviceFindPort webService webPath
    rw [deref_some, Except.ok_bind, deref_some, Except.ok_bind, hashValues_singleton]
    rfl
  . simp [namespaceGetEndpoints, webNamespace, webService]
  . exact ⟨_, List.mem_singleton.mpr rfl, ⟨str "http", 8080, str "TCP"⟩, by simp,
      ⟨some (str "10.1.2.3"), none⟩, List.mem_singleton.mpr rfl, str "10.1.2.3", rfl, rfl⟩
