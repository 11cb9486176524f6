import TsIngress.Remap.Lemmas.Build
import Mathlib.Data.List.TakeWhile

/-!
This module contains the comparison of the databases of a cluster with and without an Ingress that has
no right to any host.
-/

def Builds (env : Env) (cfg : K8sConfig) (cs : Cluster) (db : RemapDb) : Prop :=
  ∃ cs', remapDbFromCluster env cfg cs = .ok (db, cs')

theorem builds_iff (env : Env) (cfg : K8sConfig) (cs : Cluster) (db : RemapDb)
    : Builds env cfg cs db
        ↔
      (clusterSteps cfg cs).foldlM (BuildStep.run env cs) (hashNew 4093) = .ok db.rdHosts
        ∧
      db.rdConfig = cfg ∧ db.rdHealthcheck = some cs.csConfig.ccHealthcheck := by
  unfold Builds
  constructor
  . rintro ⟨cs', h⟩
    exact remapDbFromCluster.eq_of_ok h
  . rintro ⟨hsteps, hcfg, hhealth⟩
    rcases remapDbFromCluster_related env cfg cs with ⟨⟨db', cs'⟩, hosts, hst, hhosts, hdb, -⟩ | ⟨f, -, hf⟩
    . rw [hsteps] at hhosts
      cases hhosts
      dsimp only at hdb
      refine ⟨cs', ?_⟩
      rw [hst, hdb, ← hcfg, ← hhealth]
    . rw [hsteps] at hf
      cases hf

def withoutIngress (cs : Cluster) (nsName ingName : Str) : Cluster :=
  cs.modifyNamespace nsName (namespaceDelIngress · ingName)

-- The Ingress is of a class that is not handled, or its namespace may use none of its hosts.
def Ineligible (cfg : K8sConfig) (cs : Cluster) (ns : Namespace) (ing : Ingress) : Prop :=
  (∃ cls, hashGet ing.inAnnotations inClass = some cls ∧ ¬ hashPresent cfg.coClasses cls)
    ∨
  ((∀ rule ∈ ing.inRules, ∀ host, rule.irHost = some host → ¬ clusterDomainForNs cs host ns.nsName)
    ∧ (∀ itls ∈ ing.inTls, ∀ host ∈ itls.itHosts, ¬ clusterDomainForNs cs host ns.nsName))

-- The build asks for the secret of a TLS entry before it asks for the right to its hosts.
def NamelessSecret (cfg : K8sConfig) (ing : Ingress) : Prop :=
  classHandled cfg ing ∧ ∃ itls ∈ ing.inTls, itls.itSecretName = none

theorem Ineligible.steps_cases {cfg : K8sConfig} {cs : Cluster} {ns : Namespace} {ing : Ingress}
    (h : Ineligible cfg cs ns ing)
    : (¬ NamelessSecret cfg ing ∧ ingressSteps cfg cs ns ing = [])
        ∨
      (NamelessSecret cfg ing ∧ .noSecretName ∈ ingressSteps cfg cs ns ing) := by
  unfold NamelessSecret ingressSteps
  by_cases hclass : classHandled cfg ing
  . have hhosts : (∀ rule ∈ ing.inRules, ∀ host, rule.irHost = some host →
        ¬ clusterDomainForNs cs host ns.nsName)
        ∧ (∀ itls ∈ ing.inTls, ∀ host ∈ itls.itHosts, ¬ clusterDomainForNs cs host ns.nsName) := by
      rcases h with ⟨cls, hcls, habsent⟩ | h
      . unfold classHandled at hclass
        rw [hcls] at hclass
        exact absurd hclass habsent
      . exact h
    have hrules : ing.inRules.flatMap (ruleSteps cs ns ing) = [] := by
      rw [List.flatMap_eq_nil_iff]
      intro rule hrule
      rw [List.eq_nil_iff_forall_not_mem]
      intro step hstep
      rw [mem_ruleSteps_iff] at hstep
      rcases hstep with ⟨host, hhost, hdom, -⟩
      exact hhosts.1 rule hrule host hhost hdom
    rw [if_pos hclass, hrules, List.nil_append]
    by_cases hnames : ∃ itls ∈ ing.inTls, itls.itSecretName = none
    . right
      refine ⟨⟨hclass, hnames⟩, ?_⟩
      rcases hnames with ⟨itls, hitls, hnone⟩
      rw [List.mem_flatMap]
      refine ⟨itls, hitls, ?_⟩
      rw [mem_tlsSteps_iff]
      exact .inl ⟨hnone, rfl⟩
    . left
      refine ⟨fun h => hnames h.2, ?_⟩
      rw [List.flatMap_eq_nil_iff]
      intro itls hitls
      rw [List.eq_nil_iff_forall_not_mem]
      intro step hstep
      rw [mem_tlsSteps_iff] at hstep
      rcases hstep with ⟨hnone, -⟩ | ⟨_, _, host, -, -, hhost, -⟩
      . exact hnames ⟨itls, hitls, hnone⟩
      . apply hhosts.2 itls hitls host (List.takeWhile_subset _ hhost)
        exact List.mem_takeWhile_imp (p := (clusterDomainForNs cs · ns.nsName)) hhost
  . left
    refine ⟨fun h => hclass h.1, ?_⟩
    rw [if_neg hclass]

theorem ingressSteps_congr (cfg : K8sConfig) {cs cs' : Cluster} {ns ns' : Namespace}
    (hconfig : cs'.csConfig = cs.csConfig)
    (hdefault : ∀ host, defaultSecret cs' host = defaultSecret cs host)
    (hobjects : ns'.objects = ns.objects)
    : ingressSteps cfg cs' ns' = ingressSteps cfg cs ns := by
  have hname : ns'.nsName = ns.nsName := by
    simpa [Namespace.objects] using congrArg Namespace.nsName hobjects
  have hsecrets : ns'.nsSecrets = ns.nsSecrets := by
    simpa [Namespace.objects] using congrArg Namespace.nsSecrets hobjects
  have hdom : ∀ host, clusterDomainForNs cs' host ns'.nsName = clusterDomainForNs cs host ns.nsName := by
    intro host
    rw [hname, clusterDomainForNs_congr cs' cs host ns.nsName hconfig]
  have hrule : ∀ ing, ruleSteps cs' ns' ing = ruleSteps cs ns ing := by
    intro ing
    funext rule
    unfold ruleSteps
    simp only [hdom, hdefault, hobjects]
  have htls : tlsSteps cs' ns' = tlsSteps cs ns := by
    funext itls
    unfold tlsSteps namespaceGetSecret
    simp only [hdom, hsecrets]
  funext ing
  unfold ingressSteps
  rw [hrule, htls]

theorem defaultSecret_withoutIngress (cs : Cluster) (nsName ingName host : Str)
    : defaultSecret (withoutIngress cs nsName ingName) host = defaultSecret cs host := by
  have hcert : clusterGetCertForHostname (withoutIngress cs nsName ingName) host
      = clusterGetCertForHostname cs host := by
    rfl
  unfold defaultSecret
  rw [hcert]
  cases clusterGetCertForHostname cs host with
  | none => rfl
  | some crt =>
    dsimp only [withoutIngress, Cluster.modifyNamespace, hashGet]
    by_cases heq : crt.crNamespace = nsName
    . rw [heq, ChainTable.get_modify_self]
      cases cs.csNamespaces.get nsName with
      | none => rfl
      | some ns => rfl
    . rw [ChainTable.get_modify_ne _ _ _ _ heq]

theorem clusterSteps_withoutIngress (cfg : K8sConfig) {cs : Cluster} {nsName ingName : Str}
    {ns : Namespace} {ing : Ingress} (hns : hashGet cs.csNamespaces nsName = some ns)
    (hing : namespaceGetIngress ns ingName = some ing)
    : ∃ pre post,
        clusterSteps cfg cs = pre ++ (ingressSteps cfg cs ns ing ++ post)
          ∧
        clusterSteps cfg (withoutIngress cs nsName ingName) = pre ++ post := by
  rcases ChainTable.exists_entries_of_get hns with ⟨nss, nss', hentries, -, hmodify⟩
  rcases ChainTable.exists_entries_of_get hing with ⟨ings, ings', hings, hdel, -⟩
  have hsame : ingressSteps cfg cs (namespaceDelIngress ns ingName) = ingressSteps cfg cs ns :=
    ingressSteps_congr cfg rfl (fun _ => rfl) rfl
  have hothers : namespaceSteps cfg (withoutIngress cs nsName ingName) = namespaceSteps cfg cs := by
    funext ns'
    unfold namespaceSteps
    have hconfig : (withoutIngress cs nsName ingName).csConfig = cs.csConfig := rfl
    rw [ingressSteps_congr cfg hconfig (defaultSecret_withoutIngress cs nsName ingName)
      (rfl : ns'.objects = ns'.objects)]
  have hentries' : (withoutIngress cs nsName ingName).csNamespaces.entries
      = nss ++ (nsName, namespaceDelIngress ns ingName) :: nss' :=
    hmodify _
  have hdel' : (namespaceDelIngress ns ingName).nsIngresses.entries = ings ++ ings' := hdel
  refine ⟨nss.flatMap (fun e => namespaceSteps cfg cs e.2)
      ++ ings.flatMap (fun e => ingressSteps cfg cs ns e.2),
    ings'.flatMap (fun e => ingressSteps cfg cs ns e.2)
      ++ nss'.flatMap (fun e => namespaceSteps cfg cs e.2), ?_, ?_⟩
  . unfold clusterSteps hashValues
    rw [hentries]
    unfold namespaceSteps hashValues
    simp [hings, List.flatMap_map]
  . unfold clusterSteps hashValues
    rw [hentries', hothers]
    unfold namespaceSteps hashValues
    simp [hdel', hsame, List.flatMap_map]

theorem not_mem_of_foldlM_ok {env : Env} {cs : Cluster} {steps : List BuildStep}
    {hosts hosts' : Hash RemapHost} (h : steps.foldlM (BuildStep.run env cs) hosts = .ok hosts')
    : .noSecretName ∉ steps := by
  exact ((foldlM_run_eq_ok_iff env cs steps hosts hosts').mp h).1

theorem BuildStep.run_congr (env : Env) {cs cs' : Cluster} (h : cs'.csConfig = cs.csConfig)
    : BuildStep.run env cs' = BuildStep.run env cs := by
  funext hosts step
  cases step with
  | noSecretName => rfl
  | host hostname op =>
    dsimp only [run]
    rw [HostOp.apply_congr env h]

/--
An Ingress without any right leaves the database as it would be without it, unless a TLS entry of it
names no secret.
-/
theorem builds_withoutIngress_iff (env : Env) (cfg : K8sConfig) (cs : Cluster) (nsName ingName : Str)
    (ns : Namespace) (ing : Ingress) (db : RemapDb) (hns : hashGet cs.csNamespaces nsName = some ns)
    (hing : namespaceGetIngress ns ingName = some ing) (hineligible : Ineligible cfg cs ns ing)
    (hbuilds : Builds env cfg (withoutIngress cs nsName ingName) db)
    : Builds env cfg cs db ↔ ¬ NamelessSecret cfg ing := by
  rcases clusterSteps_withoutIngress cfg hns hing with ⟨pre, post, hwith, hwithout⟩
  rw [builds_iff] at hbuilds ⊢
  have hrun : BuildStep.run env (withoutIngress cs nsName ingName) = BuildStep.run env cs :=
    BuildStep.run_congr env rfl
  rw [hwithout, hrun] at hbuilds
  rw [hwith]
  rcases hineligible.steps_cases with ⟨hnamed, hnil⟩ | ⟨hnameless, hmem⟩
  . rw [hnil, List.nil_append]
    exact ⟨fun _ => hnamed, fun _ => hbuilds⟩
  . constructor
    . rintro ⟨hsteps, -⟩
      have := not_mem_of_foldlM_ok hsteps
      simp [hmem] at this
    . intro hnot
      exact absurd hnameless hnot

def foreignIngress (secretName : Option Str) : Ingress where
  inName := str "web"
  inNamespace := str "team-b"
  inTls := [⟨secretName, [str "foo.com"]⟩]
  inRules := []
  inAnnotations := hashNew 127

def foreignNamespace (secretName : Option Str) : Namespace :=
  { namespaceMake (str "team-b") with
    nsIngresses := hashSet (hashNew 127) (str "web") (foreignIngress secretName) }

def foreignCluster (secretName : Option Str) : Cluster where
  csNamespaces := hashSet (hashNew 127) (str "team-b") (foreignNamespace secretName)
  csConfig := clusterConfigAddDomains clusterConfigNew (str "foo.com:team-a")

def hostlessDb : RemapDb :=
  { remapDbNew anyClass with rdHealthcheck := some (str "/__trafficserver_alive") }

theorem ineligible_foreignIngress (secretName : Option Str)
    : Ineligible anyClass (foreignCluster secretName) (foreignNamespace secretName)
        (foreignIngress secretName) := by
  have hdom : clusterDomainForNs (foreignCluster none) (str "foo.com") (str "team-b") = false := by
    decide
  right
  refine ⟨?_, ?_⟩
  . intro rule hrule
    cases hrule
  . intro itls hitls host hhost
    rw [List.mem_singleton.mp hitls] at hhost
    rw [List.mem_singleton.mp hhost,
      clusterDomainForNs_congr (foreignCluster secretName) (foreignCluster none) _ _ rfl]
    simp [foreignNamespace, namespaceMake, hdom]

theorem get_foreignNamespace (secretName : Option Str)
    : hashGet (foreignCluster secretName).csNamespaces (str "team-b")
        =
      some (foreignNamespace secretName) := by
  simp [foreignCluster]

theorem get_foreignIngress (secretName : Option Str)
    : namespaceGetIngress (foreignNamespace secretName) (str "web")
        =
      some (foreignIngress secretName) := by
  simp [namespaceGetIngress, foreignNamespace]

theorem builds_foreignCluster (secretName : Option Str)
    : Builds plainEnv anyClass (withoutIngress (foreignCluster secretName) (str "team-b") (str "web"))
        hostlessDb := by
  rcases clusterSteps_withoutIngress anyClass (get_foreignNamespace secretName)
    (get_foreignIngress secretName) with ⟨pre, post, hwith, hwithout⟩
  have hall : clusterSteps anyClass (foreignCluster secretName)
      = ingressSteps anyClass (foreignCluster secretName) (foreignNamespace secretName)
          (foreignIngress secretName) := by
    unfold clusterSteps namespaceSteps
    simp [foreignCluster, foreignNamespace, hashValues_singleton]
  have hnil : pre ++ post = [] := by
    have hlen := congrArg List.length (hall.symm.trans hwith)
    simp only [List.length_append] at hlen
    apply List.eq_nil_of_length_eq_zero
    rw [List.length_append]
    omega
  rw [builds_iff, hwithout, hnil]
  exact ⟨rfl, rfl, rfl⟩

theorem builds_withoutIngress_foreignIngress
    : Builds plainEnv anyClass (foreignCluster (some (str "cert"))) hostlessDb := by
  rw [builds_withoutIngress_iff plainEnv anyClass (foreignCluster (some (str "cert"))) (str "team-b")
    (str "web") _ _ hostlessDb (get_foreignNamespace _) (get_foreignIngress _)
    (ineligible_foreignIngress _) (builds_foreignCluster _)]
  rintro ⟨-, itls, hitls, hnone⟩
  rw [List.mem_singleton.mp hitls] at hnone
  cases hnone

-- A TLS entry that names no secret stops the build, although the namespace has no right to the host.
theorem not_builds_withoutIngress
    : ¬ ∀ (env : Env) (cfg : K8sConfig) (cs : Cluster) (nsName ingName : Str) (ns : Namespace)
        (ing : Ingress) (db : RemapDb),
        hashGet cs.csNamespaces nsName = some ns →
        namespaceGetIngress ns ingName = some ing →
        Ineligible cfg cs ns ing →
        Builds env cfg (withoutIngress cs nsName ingName) db →
        Builds env cfg cs db := by
  intro h
  have hbuilds := h plainEnv anyClass (foreignCluster none) (str "team-b") (str "web") _ _ hostlessDb
    (get_foreignNamespace none) (get_foreignIngress none) (ineligible_foreignIngress none)
    (builds_foreignCluster none)
  rw [builds_iff] at hbuilds
  apply not_mem_of_foldlM_ok hbuilds.1
  rw [mem_clusterSteps_iff]
  refine ⟨foreignNamespace none, foreignIngress none, ⟨?_, ?_, rfl⟩, .inr ⟨⟨none, [str "foo.com"]⟩, ?_, ?_⟩⟩
  . simp [foreignCluster, hashValues_singleton]
  . simp [foreignNamespace, hashValues_singleton]
  . simp [foreignIngress]
  . simp [tlsSteps]
