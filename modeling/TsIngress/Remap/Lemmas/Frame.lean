import TsIngress.Remap.Lemmas.Targets

/-!
This module contains what `remap_db_from_cluster` does to the cluster it reads: it asks for the
namespaces of default certificates, and asking for a namespace creates it.
-/

def askNamespace (cs : Cluster) (name : Str) : Cluster :=
  (clusterGetNamespace cs name).2

def askNamespaces (cs : Cluster) (names : List Str) : Cluster :=
  names.foldl askNamespace cs

theorem grown_askNamespaces (cs : Cluster) (names : List Str) : Grown cs (askNamespaces cs names) := by
  have hall : ∀ cs', Grown cs cs' → Grown cs (askNamespaces cs' names) := by
    induction names with
    | nil =>
      intro cs' h
      exact h
    | cons name names ih =>
      intro cs' h
      apply ih
      apply h.of_clusterGetNamespace
  apply hall
  apply Grown.refl

theorem askNamespaces_append (cs : Cluster) (names names' : List Str)
    : askNamespaces cs (names ++ names') = askNamespaces (askNamespaces cs names) names' := by
  unfold askNamespaces
  rw [List.foldl_append]

theorem isSome_get_askNamespace_self (cs : Cluster) (name : Str)
    : (hashGet (askNamespace cs name).csNamespaces name).isSome := by
  unfold askNamespace clusterGetNamespace
  cases hget : hashGet cs.csNamespaces name with
  | some ns => simp [hget]
  | none => simp

theorem Grown.isSome_get {cs cs' : Cluster} (h : Grown cs cs') {name : Str}
    (hname : (hashGet cs.csNamespaces name).isSome)
    : (hashGet cs'.csNamespaces name).isSome := by
  rcases h.get_cases name with hget | ⟨-, hget⟩
  . rw [hget]
    exact hname
  . rw [hget]
    rfl

theorem isSome_get_askNamespaces (cs : Cluster) {names : List Str} {name : Str} (hname : name ∈ names)
    : (hashGet (askNamespaces cs names).csNamespaces name).isSome := by
  rcases List.append_of_mem hname with ⟨before, after, rfl⟩
  rw [askNamespaces_append]
  apply (grown_askNamespaces (askNamespace (askNamespaces cs before) name) after).isSome_get
  apply isSome_get_askNamespace_self

theorem askNamespaces_eq_self_iff (cs : Cluster) (names : List Str)
    : askNamespaces cs names = cs
        ↔
      ∀ name ∈ names, (hashGet cs.csNamespaces name).isSome := by
  constructor
  . intro h name hname
    rw [← h]
    exact isSome_get_askNamespaces cs hname
  . intro h
    induction names with
    | nil => rfl
    | cons name names ih =>
      have hself : askNamespace cs name = cs := by
        have hname := h name List.mem_cons_self
        rw [Option.isSome_iff_exists] at hname
        rcases hname with ⟨ns, hns⟩
        unfold askNamespace clusterGetNamespace
        rw [hns]
      unfold askNamespaces
      rw [List.foldl_cons, hself]
      apply ih
      intro name' hname'
      apply h
      exact List.mem_cons_of_mem _ hname'

def ruleAsks (cs : Cluster) (ns : Namespace) (rule : IngressRule) : List Str :=
  match rule.irHost with
  | none => []
  | some host =>
    if clusterDomainForNs cs host ns.nsName then
      ((clusterGetCertForHostname cs host).map ClusterCert.crNamespace).toList
    else
      []

def ingressAsks (cfg : K8sConfig) (cs : Cluster) (ns : Namespace) (ing : Ingress) : List Str :=
  if classHandled cfg ing then ing.inRules.flatMap (ruleAsks cs ns) else []

def namespaceAsks (cfg : K8sConfig) (cs : Cluster) (ns : Namespace) : List Str :=
  (hashValues ns.nsIngresses).flatMap (ingressAsks cfg cs ns)

def clusterAsks (cfg : K8sConfig) (cs : Cluster) : List Str :=
  (hashValues cs.csNamespaces).flatMap (namespaceAsks cfg cs)

theorem mem_ruleAsks_iff (cs : Cluster) (ns : Namespace) (rule : IngressRule) (name : Str)
    : name ∈ ruleAsks cs ns rule
        ↔
      ∃ host crt, rule.irHost = some host ∧ clusterDomainForNs cs host ns.nsName
        ∧ clusterGetCertForHostname cs host = some crt ∧ crt.crNamespace = name := by
  unfold ruleAsks
  cases rule.irHost with
  | none => simp
  | some host =>
    dsimp only
    split
    . next h => simp [h]
    . next h => simp [h]

theorem mem_clusterAsks_iff (cfg : K8sConfig) (cs : Cluster) (name : Str)
    : name ∈ clusterAsks cfg cs
        ↔
      ∃ ns ing, Visits cfg cs ns ing ∧ ∃ rule ∈ ing.inRules, name ∈ ruleAsks cs ns rule := by
  unfold clusterAsks namespaceAsks Visits
  simp only [List.mem_flatMap]
  constructor
  . rintro ⟨ns, hns, ing, hing, hname⟩
    unfold ingressAsks at hname
    split at hname
    . next hclass =>
      rw [List.mem_flatMap] at hname
      exact ⟨ns, ing, ⟨hns, hing, hclass⟩, hname⟩
    . cases hname
  . rintro ⟨ns, ing, ⟨hns, hing, hclass⟩, hname⟩
    refine ⟨ns, hns, ing, hing, ?_⟩
    unfold ingressAsks
    rw [if_pos hclass, List.mem_flatMap]
    exact hname

structure Asked (cfg : K8sConfig) (cs : Cluster) (names : List Str) (st : RemapDb × Cluster) : Prop where
  rdConfig_eq : st.1.rdConfig = cfg
  cluster_eq : st.2 = askNamespaces cs names

namespace Asked

variable {cfg : K8sConfig} {cs : Cluster} {names : List Str} {st st' : RemapDb × Cluster}

theorem grown (h : Asked cfg cs names st) : Grown cs st.2 := by
  rw [h.cluster_eq]
  apply grown_askNamespaces

theorem csConfig_eq (h : Asked cfg cs names st) : st.2.csConfig = cs.csConfig := by
  exact h.grown.csConfig_eq

theorem of_eq (h : Asked cfg cs names st) (hconfig : st'.1.rdConfig = st.1.rdConfig)
    (hcluster : st'.2 = st.2)
    : Asked cfg cs names st' := by
  constructor
  . rw [hconfig]
    exact h.rdConfig_eq
  . rw [hcluster]
    exact h.cluster_eq

end Asked

theorem remapDbGetOrCreateHost_rdConfig (db : RemapDb) (host : Str)
    : (remapDbGetOrCreateHost db host).2.rdConfig = db.rdConfig := by
  unfold remapDbGetOrCreateHost
  split
  . rfl
  . rfl

theorem remapHostAttachDefaultTls_cluster (env : Env) (rh : RemapHost) (cs : Cluster) (host : Str)
    : (remapHostAttachDefaultTls env rh cs host).2
        =
      askNamespaces cs ((clusterGetCertForHostname cs host).map ClusterCert.crNamespace).toList := by
  unfold remapHostAttachDefaultTls
  cases clusterGetCertForHostname cs host with
  | none => rfl
  | some crt =>
    dsimp only
    split
    . rfl
    . rfl

theorem buildTlsHosts_rdConfig (env : Env) (cs : Cluster) (ns : Namespace) (secret : Secret)
    (db : RemapDb) (hosts : List Str)
    : (buildTlsHosts env cs ns secret db hosts).rdConfig = db.rdConfig := by
  induction hosts generalizing db with
  | nil => rfl
  | cons hostname rest ih =>
    unfold buildTlsHosts
    split
    . rfl
    . rw [ih]
      apply remapDbGetOrCreateHost_rdConfig

namespace Asked

variable {cfg : K8sConfig} {cs : Cluster} {names : List Str} {st st' : RemapDb × Cluster} {env : Env}

theorem after_rule {ns : Namespace} {ing : Ingress} {rule : IngressRule} (h : Asked cfg cs names st)
    (hstep : buildIngressRule env ns ing st rule = .ok st')
    : Asked cfg cs (names ++ ruleAsks cs ns rule) st' := by
  have hdomain : ∀ host, clusterDomainForNs st.2 host ns.nsName = clusterDomainForNs cs host ns.nsName := by
    intro host
    exact clusterDomainForNs_congr st.2 cs host ns.nsName h.csConfig_eq
  have hcert : ∀ host, clusterGetCertForHostname st.2 host = clusterGetCertForHostname cs host := by
    intro host
    unfold clusterGetCertForHostname
    rw [h.csConfig_eq]
  unfold buildIngressRule at hstep
  unfold ruleAsks
  cases hhost : rule.irHost with
  | none =>
    rw [hhost] at hstep
    cases hstep
    rw [List.append_nil]
    exact h
  | some host =>
    rw [hhost] at hstep
    dsimp only at hstep ⊢
    rw [hdomain] at hstep
    cases hdom : clusterDomainForNs cs host ns.nsName with
    | false =>
      rw [hdom] at hstep
      cases hstep
      rw [if_neg (by simp), List.append_nil]
      exact h
    | true =>
      rw [hdom, if_neg (by simp), Except.bind_eq_ok_iff] at hstep
      rcases hstep with ⟨rh, -, hrh⟩
      cases hrh
      rw [if_pos rfl]
      constructor
      . dsimp only [RemapDb.setHost]
        rw [remapDbGetOrCreateHost_rdConfig]
        exact h.rdConfig_eq
      . dsimp only
        rw [remapHostAttachDefaultTls_cluster, hcert, h.cluster_eq, askNamespaces_append]

theorem after_tls {ns : Namespace} {itls : IngressTls} (h : Asked cfg cs names st)
    (hstep : buildIngressTls env ns st itls = .ok st')
    : Asked cfg cs names st' := by
  unfold buildIngressTls at hstep
  dsimp only at hstep
  rw [Except.bind_eq_ok_iff] at hstep
  rcases hstep with ⟨name, -, hstep⟩
  cases hsecret : namespaceGetSecret ns name with
  | none =>
    rw [hsecret] at hstep
    cases hstep
    exact h
  | some secret =>
    rw [hsecret] at hstep
    cases hstep
    apply h.of_eq
    . apply buildTlsHosts_rdConfig
    . rfl

theorem after_ingress {ns : Namespace} {ing : Ingress} (h : Asked cfg cs names st)
    (hstep : buildIngress env ns st ing = .ok st')
    : Asked cfg cs (names ++ ingressAsks cfg cs ns ing) st' := by
  unfold buildIngress at hstep
  unfold ingressAsks
  rw [h.rdConfig_eq] at hstep
  cases hclass : classHandled cfg ing with
  | false =>
    rw [hclass] at hstep
    cases hstep
    rw [if_neg (by simp), List.append_nil]
    exact h
  | true =>
    rw [hclass, if_neg (by simp), Except.bind_eq_ok_iff] at hstep
    rcases hstep with ⟨t, hrules, htls⟩
    rw [if_pos rfl]
    have ht : Asked cfg cs (names ++ ing.inRules.flatMap (ruleAsks cs ns)) t := by
      apply ExceptFold.foldlM_collect _ h hrules
      intro names s rule s' _ hs hrule
      exact hs.after_rule hrule
    apply ExceptFold.foldlM_invariant _ ht htls
    intro s itls s' _ hs hitls
    exact hs.after_tls hitls

theorem after_namespace {ns : Namespace} (h : Asked cfg cs names st)
    (hstep : buildNamespace env st ns = .ok st')
    : Asked cfg cs (names ++ namespaceAsks cfg cs ns) st' := by
  apply ExceptFold.foldlM_collect _ h hstep
  intro names s ing s' _ hs hing
  exact hs.after_ingress hing

end Asked

namespace remapDbFromCluster

variable {env : Env} {cfg : K8sConfig} {cs cs' : Cluster} {db : RemapDb}

theorem cluster_eq (h : remapDbFromCluster env cfg cs = .ok (db, cs'))
    : cs' = askNamespaces cs (clusterAsks cfg cs) := by
  have hasks : clusterAsks cfg cs
      = (List.range cs.csNamespaces.size).flatMap fun i =>
          ((cs.csNamespaces.bucketAt i).map Prod.snd).flatMap (namespaceAsks cfg cs) := by
    unfold clusterAsks hashValues
    rw [ChainTable.entries_eq_flatMap_bucketAt, List.map_flatMap, List.flatMap_assoc]
  have hstart : Asked cfg cs [] (remapDbNew cfg, cs) := ⟨rfl, rfl⟩
  unfold remapDbFromCluster at h
  rw [Except.bind_eq_ok_iff] at h
  rcases h with ⟨⟨db', cs''⟩, hloop, hret⟩
  cases hret
  have hend := ExceptFold.foldlM_collect
    (g := fun i => ((cs.csNamespaces.bucketAt i).map Prod.snd).flatMap (namespaceAsks cfg cs)) ?_ hstart hloop
  . rw [List.nil_append, ← hasks] at hend
    exact hend.cluster_eq
  . intro names st i st' _ hst hbucket
    -- the namespaces in front of the bucket were added by this build and hold no Ingress
    rcases hst.grown.bucketAt_eq i with ⟨extra, heq, hextra⟩
    rw [heq, foldlM_buildNamespace_extra env st extra _ hextra] at hbucket
    apply ExceptFold.foldlM_collect _ hst hbucket
    intro names s ns s' _ hs hns
    exact hs.after_namespace hns

end remapDbFromCluster

def webCertCluster (certs : String) : Cluster :=
  { webCluster with csConfig := clusterConfigAddCerts clusterConfigNew (str certs) }

theorem builds_webCertCluster (certs : String)
    : Except.Returns (remapDbFromCluster plainEnv anyClass (webCertCluster certs)) := by
  apply remapDbFromCluster_returns
  . exact hasFields_webCluster
  . exact passwordsEnd_webCluster

theorem hashGet_webCertCluster (certs : String) (name : Str)
    : (hashGet (webCertCluster certs).csNamespaces name).isSome ↔ name = str "default" := by
  have hnamespaces : (webCertCluster certs).csNamespaces = hashSet (hashNew 127) (str "default") webNamespace := by
    rfl
  rw [hnamespaces]
  by_cases hname : name = str "default"
  . simp [hname]
  . dsimp only [hashGet, hashSet]
    rw [ChainTable.get_set_ne _ _ _ _ hname]
    simp [hname, hashNew]

/--
A build leaves the cluster as it was, unless a default certificate for the host of a rule that it builds
is in a namespace the cluster does not have.
-/
theorem remapDbFromCluster_frame_iff (env : Env) (cfg : K8sConfig) (cs cs' : Cluster) (db : RemapDb)
    (h : remapDbFromCluster env cfg cs = .ok (db, cs'))
    : cs' = cs
        ↔
      ∀ ns ing, Visits cfg cs ns ing → ∀ rule ∈ ing.inRules, ∀ host crt,
        rule.irHost = some host →
        clusterDomainForNs cs host ns.nsName →
        clusterGetCertForHostname cs host = some crt →
        (hashGet cs.csNamespaces crt.crNamespace).isSome := by
  rw [remapDbFromCluster.cluster_eq h, askNamespaces_eq_self_iff]
  simp only [mem_clusterAsks_iff, mem_ruleAsks_iff]
  constructor
  . intro hall ns ing hvisits rule hrule host crt hhost hdom hcrt
    apply hall
    exact ⟨ns, ing, hvisits, rule, hrule, host, crt, hhost, hdom, hcrt, rfl⟩
  . rintro hall _ ⟨ns, ing, hvisits, rule, hrule, host, crt, hhost, hdom, hcrt, rfl⟩
    exact hall ns ing hvisits rule hrule host crt hhost hdom hcrt

theorem remapDbFromCluster_frame_ownNamespace
    : ∃ db cs',
        remapDbFromCluster plainEnv anyClass (webCertCluster "foo.com:default/wild") = .ok (db, cs')
          ∧
        cs' = webCertCluster "foo.com:default/wild" := by
  rcases builds_webCertCluster "foo.com:default/wild" with ⟨⟨db, cs'⟩, h⟩
  refine ⟨db, cs', h, ?_⟩
  rw [remapDbFromCluster_frame_iff plainEnv anyClass _ cs' db h]
  intro ns ing _ rule _ host crt _ _ hcrt
  rw [hashGet_webCertCluster]
  have hcerts : (webCertCluster "foo.com:default/wild").csConfig.ccCerts
      = [⟨str "foo.com", str "default", str "wild"⟩] := by
    decide
  unfold clusterGetCertForHostname at hcrt
  rw [hcerts] at hcrt
  have hmem := List.mem_of_find?_eq_some hcrt
  rw [List.mem_singleton] at hmem
  rw [hmem]

-- The certificate is in the namespace "certs", which has no objects and is therefore not in the cluster.
theorem not_remapDbFromCluster_frame
    : ¬ ∀ (env : Env) (cfg : K8sConfig) (cs cs' : Cluster) (db : RemapDb),
        remapDbFromCluster env cfg cs = .ok (db, cs') → cs' = cs := by
  intro hframe
  rcases builds_webCertCluster "foo.com:certs/wild" with ⟨⟨db, cs'⟩, h⟩
  have hsame := hframe plainEnv anyClass _ cs' db h
  rw [remapDbFromCluster.cluster_eq h, askNamespaces_eq_self_iff] at hsame
  have hasked : str "certs" ∈ clusterAsks anyClass (webCertCluster "foo.com:certs/wild") := by
    rw [mem_clusterAsks_iff]
    refine ⟨webNamespace, webIngress, webEntry.visits, ⟨some (str "foo.com"), [webPath]⟩, ?_, ?_⟩
    . simp [webIngress]
    . decide
  have hpresent := hsame (str "certs") hasked
  rw [hashGet_webCertCluster] at hpresent
  revert hpresent
  decide
