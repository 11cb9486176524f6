import TsIngress.Remap.Lemmas.Build
import Mathlib.Data.List.Induction
import Mathlib.Data.List.TakeWhile

/-!
This module contains which secret the TLS context of a host comes from. The rules of a host attach the
default certificate, its TLS entries attach theirs, and the last one to do so wins.
-/

def HasRuleFor (cfg : K8sConfig) (cs : Cluster) (host : Str) (p : Namespace × Ingress) : Prop :=
  classHandled cfg p.2 ∧ clusterDomainForNs cs host p.1.nsName
    ∧ ∃ rule ∈ p.2.inRules, rule.irHost = some host

def HasTlsFor (cfg : K8sConfig) (cs : Cluster) (host : Str) (p : Namespace × Ingress) : Prop :=
  classHandled cfg p.2
    ∧ ∃ itls ∈ p.2.inTls, ∃ name secret, itls.itSecretName = some name
      ∧ namespaceGetSecret p.1 name = some secret
      ∧ host ∈ itls.itHosts.takeWhile (clusterDomainForNs cs · p.1.nsName)

-- An Ingress with a rule for the host is visited behind all those with a TLS entry for it.
def RuleAfterTls (cfg : K8sConfig) (cs : Cluster) (host : Str) (l : List (Namespace × Ingress)) : Prop :=
  ∃ pre p post, l = pre ++ p :: post ∧ HasRuleFor cfg cs host p
    ∧ ∀ q ∈ p :: post, ¬ HasTlsFor cfg cs host q

theorem ruleAfterTls_concat_iff (cfg : K8sConfig) (cs : Cluster) (host : Str)
    (l : List (Namespace × Ingress)) (p : Namespace × Ingress)
    : RuleAfterTls cfg cs host (l ++ [p])
        ↔
      ¬ HasTlsFor cfg cs host p ∧ (HasRuleFor cfg cs host p ∨ RuleAfterTls cfg cs host l) := by
  constructor
  . rintro ⟨pre, q, post, heq, hrule, htls⟩
    rcases List.eq_nil_or_concat post with rfl | ⟨post', r, rfl⟩
    . rw [List.append_singleton_inj] at heq
      rcases heq with ⟨-, rfl⟩
      exact ⟨htls p (by simp), .inl hrule⟩
    . rw [List.concat_eq_append, ← List.cons_append, ← List.append_assoc,
        List.append_singleton_inj] at heq
      rcases heq with ⟨rfl, rfl⟩
      refine ⟨htls p (by simp), .inr ⟨pre, q, post', rfl, hrule, ?_⟩⟩
      intro q' hq'
      apply htls
      rw [List.concat_eq_append, ← List.cons_append]
      exact List.mem_append_left _ hq'
  . rintro ⟨htls, hrule | ⟨pre, q, post, rfl, hrule, hnone⟩⟩
    . exact ⟨l, p, [], rfl, hrule, by simpa using htls⟩
    . refine ⟨pre, q, post ++ [p], by simp, hrule, ?_⟩
      intro q' hq'
      rw [← List.cons_append, List.mem_append, List.mem_singleton] at hq'
      rcases hq' with hq' | rfl
      . exact hnone q' hq'
      . exact htls

def ruleOpsFor (cfg : K8sConfig) (cs : Cluster) (host : Str) (p : Namespace × Ingress) : List HostOp :=
  if classHandled cfg p.2 then
    KeyedRun.opsAt host ((p.2.inRules.flatMap (ruleSteps cs p.1 p.2)).filterMap BuildStep.hostOp)
  else
    []

def tlsOpsFor (cfg : K8sConfig) (cs : Cluster) (host : Str) (p : Namespace × Ingress) : List HostOp :=
  if classHandled cfg p.2 then
    KeyedRun.opsAt host ((p.2.inTls.flatMap (tlsSteps cs p.1)).filterMap BuildStep.hostOp)
  else
    []

theorem opsFor_eq_flatMap (cfg : K8sConfig) (cs : Cluster) (host : Str)
    : opsFor cfg cs host
        =
      (visitOrder cs).flatMap fun p => ruleOpsFor cfg cs host p ++ tlsOpsFor cfg cs host p := by
  have hparts : ∀ p : Namespace × Ingress,
      KeyedRun.opsAt host ((ingressSteps cfg cs p.1 p.2).filterMap BuildStep.hostOp)
        = ruleOpsFor cfg cs host p ++ tlsOpsFor cfg cs host p := by
    intro p
    unfold ingressSteps ruleOpsFor tlsOpsFor
    split
    . rw [List.filterMap_append, KeyedRun.opsAt_append]
    . rfl
  unfold opsFor
  rw [clusterSteps_eq_flatMap]
  simp only [← hparts]
  unfold KeyedRun.opsAt
  simp [List.filterMap_flatMap, List.filter_flatMap, List.map_flatMap]

theorem mem_ruleOpsFor_iff (cfg : K8sConfig) (cs : Cluster) (host : Str) (p : Namespace × Ingress)
    (op : HostOp)
    : op ∈ ruleOpsFor cfg cs host p
        ↔
      classHandled cfg p.2 ∧ clusterDomainForNs cs host p.1.nsName
        ∧ ∃ rule ∈ p.2.inRules, rule.irHost = some host
          ∧ op = .rule (defaultSecret cs host) p.1.objects p.2 rule.irPaths := by
  unfold ruleOpsFor
  split
  . next hclass =>
    simp only [mem_opsAt_filterMap_iff, List.mem_flatMap, mem_ruleSteps_iff, hclass, true_and]
    constructor
    . rintro ⟨rule, hrule, host', hhost, hdom, heq⟩
      cases heq
      exact ⟨hdom, rule, hrule, hhost, rfl⟩
    . rintro ⟨hdom, rule, hrule, hhost, rfl⟩
      exact ⟨rule, hrule, host, hhost, hdom, rfl⟩
  . next hclass => simp [hclass]

theorem mem_tlsOpsFor_iff (cfg : K8sConfig) (cs : Cluster) (host : Str) (p : Namespace × Ingress)
    (op : HostOp)
    : op ∈ tlsOpsFor cfg cs host p
        ↔
      classHandled cfg p.2
        ∧ ∃ itls ∈ p.2.inTls, ∃ name secret, itls.itSecretName = some name
          ∧ namespaceGetSecret p.1 name = some secret
          ∧ host ∈ itls.itHosts.takeWhile (clusterDomainForNs cs · p.1.nsName)
          ∧ op = .tls secret := by
  unfold tlsOpsFor
  split
  . next hclass =>
    simp only [mem_opsAt_filterMap_iff, List.mem_flatMap, mem_tlsSteps_iff, hclass, true_and]
    constructor
    . rintro ⟨itls, hitls, ⟨-, heq⟩ | ⟨name, secret, host', hname, hsecret, hhost, heq⟩⟩
      . cases heq
      . cases heq
        exact ⟨itls, hitls, name, _, hname, hsecret, hhost, rfl⟩
    . rintro ⟨itls, hitls, name, secret, hname, hsecret, hhost, rfl⟩
      exact ⟨itls, hitls, .inr ⟨name, secret, host, hname, hsecret, hhost, rfl⟩⟩
  . next hclass => simp [hclass]

theorem ruleOpsFor_ne_nil_iff (cfg : K8sConfig) (cs : Cluster) (host : Str) (p : Namespace × Ingress)
    : ruleOpsFor cfg cs host p ≠ [] ↔ HasRuleFor cfg cs host p := by
  constructor
  . intro hne
    rcases List.exists_mem_of_ne_nil _ hne with ⟨op, hop⟩
    rw [mem_ruleOpsFor_iff] at hop
    rcases hop with ⟨hclass, hdom, rule, hrule, hhost, -⟩
    exact ⟨hclass, hdom, rule, hrule, hhost⟩
  . rintro ⟨hclass, hdom, rule, hrule, hhost⟩
    apply List.ne_nil_of_mem
    exact (mem_ruleOpsFor_iff cfg cs host p _).mpr ⟨hclass, hdom, rule, hrule, hhost, rfl⟩

theorem tlsOpsFor_ne_nil_iff (cfg : K8sConfig) (cs : Cluster) (host : Str) (p : Namespace × Ingress)
    : tlsOpsFor cfg cs host p ≠ [] ↔ HasTlsFor cfg cs host p := by
  constructor
  . intro hne
    rcases List.exists_mem_of_ne_nil _ hne with ⟨op, hop⟩
    rw [mem_tlsOpsFor_iff] at hop
    rcases hop with ⟨hclass, itls, hitls, name, secret, hname, hsecret, hhost, -⟩
    exact ⟨hclass, itls, hitls, name, secret, hname, hsecret, hhost⟩
  . rintro ⟨hclass, itls, hitls, name, secret, hname, hsecret, hhost⟩
    apply List.ne_nil_of_mem
    exact (mem_tlsOpsFor_iff cfg cs host p _).mpr
      ⟨hclass, itls, hitls, name, secret, hname, hsecret, hhost, rfl⟩

def HostOp.isRule : HostOp → Bool
  | .rule .. => true
  | .tls _ => false

theorem getLast?_isRule_iff (cfg : K8sConfig) (cs : Cluster) (host : Str)
    (l : List (Namespace × Ingress))
    : ((l.flatMap fun p => ruleOpsFor cfg cs host p ++ tlsOpsFor cfg cs host p).getLast?.map
          HostOp.isRule = some true)
        ↔
      RuleAfterTls cfg cs host l := by
  induction l using List.reverseRecOn with
  | nil =>
    simp only [List.flatMap_nil, List.getLast?_nil, Option.map_none, reduceCtorEq, false_iff]
    rintro ⟨pre, p, post, heq, -⟩
    simp at heq
  | append_singleton l p ih =>
    rw [ruleAfterTls_concat_iff, ← ih, ← ruleOpsFor_ne_nil_iff, ← tlsOpsFor_ne_nil_iff,
      List.flatMap_append, List.flatMap_singleton]
    rcases List.eq_nil_or_concat (tlsOpsFor cfg cs host p) with htls | ⟨tls, op, htls⟩
    . rcases List.eq_nil_or_concat (ruleOpsFor cfg cs host p) with hrule | ⟨rules, op, hrule⟩
      . simp [htls, hrule]
      . have hop : op ∈ ruleOpsFor cfg cs host p := by
          simp [hrule]
        rw [mem_ruleOpsFor_iff] at hop
        rcases hop with ⟨-, -, rule, -, -, rfl⟩
        simp [htls, hrule, HostOp.isRule]
    . have hop : op ∈ tlsOpsFor cfg cs host p := by
        simp [htls]
      rw [mem_tlsOpsFor_iff] at hop
      rcases hop with ⟨-, _, -, _, secret, -, -, -, rfl⟩
      simp [htls, HostOp.isRule]

def HostOp.setsCtx (env : Env) : HostOp → Option (Option SslCtx)
  | .rule dflt _ _ _ => dflt.map (secretMakeSslCtx env)
  | .tls secret => some (secretMakeSslCtx env secret)

theorem HostOp.rhCtx_of_ok {env : Env} {cs : Cluster} {op : HostOp} {rh rh' : RemapHost}
    (happly : op.apply env cs rh = .ok rh')
    : rh'.rhCtx = (op.setsCtx env).getD rh.rhCtx := by
  cases op with
  | rule dflt ns ing paths =>
    have hkeep : rh'.rhCtx = (rh.attachDefault env dflt).rhCtx := by
      apply ExceptFold.foldlM_invariant (P := fun rh1 => rh1.rhCtx = (rh.attachDefault env dflt).rhCtx)
        _ rfl happly
      intro rh1 path rh2 _ h hstep
      cases buildIngressPath_pathStep hstep with
      | skip heq => rw [heq, h]
      | default _ _ _ _ _ _ _ _ _ _ hctx => rw [hctx, h]
      | new _ _ _ _ _ _ _ _ _ _ _ hctx => rw [hctx, h]
    rw [hkeep]
    unfold setsCtx RemapHost.attachDefault
    cases dflt <;> rfl
  | tls secret =>
    cases happly
    rfl

theorem runOps_rhCtx {env : Env} {cs : Cluster} {ops : List HostOp} {rh : RemapHost}
    (h : runOps env cs ops remapHostNew = .ok rh)
    : rh.rhCtx = (ops.filterMap (HostOp.setsCtx env)).getLast?.getD none := by
  exact ExceptFold.foldlM_lastWrite (g := RemapHost.rhCtx)
    (fun rh op rh' _ happly => HostOp.rhCtx_of_ok happly) h

def TlsEntryFor (cfg : K8sConfig) (cs : Cluster) (host : Str) (ns : Namespace) (ing : Ingress)
    (itls : IngressTls) : Prop :=
  Visits cfg cs ns ing ∧ itls ∈ ing.inTls ∧ host ∈ itls.itHosts

def NamesGoodSecret (env : Env) (ns : Namespace) (itls : IngressTls) (secret : Secret) : Prop :=
  ∃ name, itls.itSecretName = some name ∧ namespaceGetSecret ns name = some secret
    ∧ (secretMakeSslCtx env secret).isSome

def ExplicitSecret (env : Env) (cfg : K8sConfig) (cs : Cluster) (host : Str) (secret : Secret) : Prop :=
  ∃ ns ing itls, TlsEntryFor cfg cs host ns ing itls ∧ NamesGoodSecret env ns itls secret

def CtxExplicit (env : Env) (cfg : K8sConfig) (cs : Cluster) (host : Str) (ctx : Option SslCtx) : Prop :=
  ∃ secret, ctx = secretMakeSslCtx env secret ∧ ctx.isSome ∧ ExplicitSecret env cfg cs host secret

theorem NamesGoodSecret.unique {env : Env} {ns : Namespace} {itls : IngressTls} {name : Str}
    {secret secret' : Secret} (h : NamesGoodSecret env ns itls secret')
    (hname : itls.itSecretName = some name) (hsecret : namespaceGetSecret ns name = some secret)
    : secret' = secret := by
  rcases h with ⟨name', hname', hsecret', -⟩
  rw [hname] at hname'
  cases hname'
  rw [hsecret] at hsecret'
  cases hsecret'
  rfl

section

variable {env : Env} {cfg : K8sConfig} {cs : Cluster} {host : Str}

-- Every TLS entry that lists the host names a secret that a context can be made of.
variable (hall : ∀ ns ing itls, TlsEntryFor cfg cs host ns ing itls →
  ∃ secret, NamesGoodSecret env ns itls secret)

include hall

theorem ctxExplicit_of_mem {secret : Secret} (hmem : .tls secret ∈ opsFor cfg cs host)
    : CtxExplicit env cfg cs host (secretMakeSslCtx env secret) := by
  rw [tls_mem_opsFor_iff] at hmem
  rcases hmem with ⟨ns, ing, hvisits, itls, hitls, name, hname, hsecret, hhost⟩
  have hentry : TlsEntryFor cfg cs host ns ing itls :=
    ⟨hvisits, hitls, List.takeWhile_subset _ hhost⟩
  rcases hall ns ing itls hentry with ⟨secret', hgood⟩
  have heq := hgood.unique hname hsecret
  subst heq
  rcases id hgood with ⟨-, -, -, hsome⟩
  exact ⟨secret', rfl, hsome, ns, ing, itls, hentry, hgood⟩

theorem ctxExplicit_of_no_default {secret : Secret} (hmem : .tls secret ∈ opsFor cfg cs host)
    (hdflt : defaultSecret cs host = none)
    : CtxExplicit env cfg cs host
        (((opsFor cfg cs host).filterMap (HostOp.setsCtx env)).getLast?.getD none) := by
  have hne : (opsFor cfg cs host).filterMap (HostOp.setsCtx env) ≠ [] := by
    apply List.ne_nil_of_mem
    rw [List.mem_filterMap]
    exact ⟨_, hmem, rfl⟩
  have hlast := List.getLast_mem hne
  rw [List.mem_filterMap] at hlast
  rcases hlast with ⟨op, hop, hsets⟩
  rw [List.getLast?_eq_some_getLast hne, Option.getD_some]
  cases op with
  | rule dflt ns ing paths =>
    rw [rule_mem_opsFor_iff] at hop
    rcases hop with ⟨_, -, -, -, rfl, -⟩
    rw [HostOp.setsCtx, hdflt] at hsets
    cases hsets
  | tls secret' =>
    rw [HostOp.setsCtx, Option.some.injEq] at hsets
    rw [← hsets]
    exact ctxExplicit_of_mem hall hop

theorem ctxExplicit_iff_of_default {dflt secret : Secret} (hmem : .tls secret ∈ opsFor cfg cs host)
    (hdflt : defaultSecret cs host = some dflt)
    : CtxExplicit env cfg cs host
          (((opsFor cfg cs host).filterMap (HostOp.setsCtx env)).getLast?.getD none)
        ↔
      ¬ (RuleAfterTls cfg cs host (visitOrder cs)
        ∧ ¬ CtxExplicit env cfg cs host (secretMakeSslCtx env dflt)) := by
  rw [← getLast?_isRule_iff, ← opsFor_eq_flatMap]
  rcases List.eq_nil_or_concat (opsFor cfg cs host) with hnil | ⟨init, op, heq⟩
  . simp [hnil] at hmem
  . have hop : op ∈ opsFor cfg cs host := by
      simp [heq]
    rw [heq, List.concat_eq_append, List.filterMap_append]
    cases op with
    | rule d ns ing paths =>
      rw [rule_mem_opsFor_iff] at hop
      rcases hop with ⟨_, -, -, -, rfl, -⟩
      simp [HostOp.setsCtx, hdflt, HostOp.isRule]
    | tls secret' =>
      have hexplicit := ctxExplicit_of_mem hall hop
      simpa [HostOp.setsCtx, HostOp.isRule] using hexplicit

end

theorem tls_mem_opsFor_of_entry {env : Env} {cfg : K8sConfig} {cs : Cluster} {host : Str}
    (hentry : ∃ ns ing itls secret, TlsEntryFor cfg cs host ns ing itls
      ∧ (∀ hostname ∈ itls.itHosts, clusterDomainForNs cs hostname ns.nsName)
      ∧ NamesGoodSecret env ns itls secret)
    : ∃ secret, .tls secret ∈ opsFor cfg cs host := by
  rcases hentry with ⟨ns, ing, itls, secret, ⟨hvisits, hitls, hhost⟩, hdom, name, hname, hsecret, -⟩
  refine ⟨secret, ?_⟩
  rw [tls_mem_opsFor_iff]
  refine ⟨ns, ing, hvisits, itls, hitls, name, hname, hsecret, ?_⟩
  rw [List.takeWhile_eq_self_iff.mpr hdom]
  exact hhost

theorem exists_rhCtx_iff {env : Env} {cfg : K8sConfig} {cs cs' : Cluster} {db : RemapDb} {host : Str}
    {op : HostOp} (h : remapDbFromCluster env cfg cs = .ok (db, cs')) (hmem : op ∈ opsFor cfg cs host)
    (P : Option SslCtx → Prop)
    : (∃ rh, remapDbGetHost db host = some rh ∧ P rh.rhCtx)
        ↔
      P (((opsFor cfg cs host).filterMap (HostOp.setsCtx env)).getLast?.getD none) := by
  rcases remapDbFromCluster.runOps_of_ok h (List.ne_nil_of_mem hmem) with ⟨rh, hrun, hget⟩
  rw [← runOps_rhCtx hrun]
  simp [hget]

def certSecret (name : String) : Secret where
  seName := str name
  seNamespace := str "default"
  seType := str "kubernetes.io/tls"
  seData := hashSet (hashSet (hashNew 127) (str "tls.crt") (str "LS0tLS1CRUdJTg==")) (str "tls.key")
    (str "LS0tLS1CRUdJTg==")

def webTlsIngress : Ingress where
  inName := str "web"
  inNamespace := str "default"
  inTls := [⟨some (str "cert"), [str "foo.com"]⟩]
  inRules := [⟨some (str "foo.com"), []⟩]
  inAnnotations := hashNew 127

def wwwIngress : Ingress where
  inName := str "www"
  inNamespace := str "default"
  inTls := []
  inRules := [⟨some (str "foo.com"), []⟩]
  inAnnotations := hashNew 127

def certNamespace (ings : Hash Ingress) : Namespace where
  nsName := str "default"
  nsIngresses := ings
  nsSecrets := hashSet (hashSet (hashNew 127) (str "cert") (certSecret "cert")) (str "wild") (certSecret "wild")
  nsServices := hashNew 127
  nsEndpointses := hashNew 127

def certCluster (ings : Hash Ingress) : Cluster where
  csNamespaces := hashSet (hashNew 127) (str "default") (certNamespace ings)
  csConfig := clusterConfigAddCerts clusterConfigNew (str "foo.com:default/wild")

theorem hashValues_certCluster (ings : Hash Ingress)
    : hashValues (certCluster ings).csNamespaces = [certNamespace ings] := by
  apply hashValues_singleton

theorem namespaceGetSecret_certNamespace (ings : Hash Ingress)
    : namespaceGetSecret (certNamespace ings) (str "cert") = some (certSecret "cert")
        ∧
      namespaceGetSecret (certNamespace ings) (str "wild") = some (certSecret "wild") := by
  constructor
  . dsimp only [namespaceGetSecret, certNamespace, hashGet, hashSet]
    rw [ChainTable.get_set_ne _ _ _ _ (by decide), ChainTable.get_set_self]
  . dsimp only [namespaceGetSecret, certNamespace, hashGet, hashSet]
    rw [ChainTable.get_set_self]

theorem defaultSecret_certCluster (ings : Hash Ingress)
    : defaultSecret (certCluster ings) (str "foo.com") = some (certSecret "wild") := by
  have hcert : clusterGetCertForHostname (certCluster ings) (str "foo.com")
      = some ⟨str "foo.com", str "default", str "wild"⟩ := by
    have hcerts : (clusterConfigAddCerts clusterConfigNew (str "foo.com:default/wild")).ccCerts.find?
        (fun crt => domainMatch crt.crDomain (str "foo.com"))
        = some ⟨str "foo.com", str "default", str "wild"⟩ := by decide
    exact hcerts
  have hns : hashGet (certCluster ings).csNamespaces (str "default") = some (certNamespace ings) := by
    simp [certCluster]
  unfold defaultSecret
  rw [hcert]
  dsimp only
  rw [hns]
  exact (namespaceGetSecret_certNamespace ings).2

theorem builds_certCluster {ings : Hash Ingress}
    (hings : ∀ ing ∈ hashValues ings, ing = webTlsIngress ∨ ing = wwwIngress)
    : Except.Returns (remapDbFromCluster plainEnv anyClass (certCluster ings)) := by
  apply remapDbFromCluster_returns
  . intro ns hns
    rw [hashValues_certCluster, List.mem_singleton] at hns
    subst hns
    constructor
    . intro ing hing
      rcases hings ing hing with rfl | rfl <;> simp [webTlsIngress, wwwIngress]
    . intro ing hing
      rcases hings ing hing with rfl | rfl <;> simp [webTlsIngress, wwwIngress]
    . simp [certNamespace, hashValues]
    . simp [certNamespace, hashValues]
  . intro ns hns
    rw [hashValues_certCluster, List.mem_singleton] at hns
    subst hns
    intro se hse
    have hdata : hashGet se.seData (str "auth") = none := by
      simp only [hashValues, certNamespace, List.mem_map, ChainTable.mem_entries_set_iff] at hse
      rcases hse with ⟨e, rfl | rfl | he, rfl⟩
      . rfl
      . rfl
      . simp at he
    unfold remapPathAddUsers
    rw [hdata]
    exact Except.Returns.ok _

def ownIngresses : Hash Ingress :=
  hashSet (hashNew 127) (str "web") webTlsIngress

def bothIngresses : Hash Ingress :=
  hashSet (hashSet (hashNew 127) (str "www") wwwIngress) (str "web") webTlsIngress

theorem hashValues_ownIngresses : hashValues ownIngresses = [webTlsIngress] := by
  apply hashValues_singleton

theorem hashValues_bothIngresses : hashValues bothIngresses = [webTlsIngress, wwwIngress] := by
  unfold bothIngresses hashValues hashSet hashNew
  rw [ChainTable.entries_set_set_new _ _ _ _ _ _ (by decide)]
  rfl

theorem visitOrder_certCluster (ings : Hash Ingress)
    : visitOrder (certCluster ings) = (hashValues ings).map fun ing => (certNamespace ings, ing) := by
  unfold visitOrder
  rw [hashValues_certCluster]
  simp [certNamespace]

theorem clusterDomainForNs_certCluster (ings : Hash Ingress) (host ns : Str)
    : clusterDomainForNs (certCluster ings) host ns = true := by
  rfl

section

variable {ings : Hash Ingress}
  (hings : ∀ ing ∈ hashValues ings, ing = webTlsIngress ∨ ing = wwwIngress)

include hings

theorem TlsEntryFor.of_certCluster {host : Str} {ns : Namespace} {ing : Ingress} {itls : IngressTls}
    (h : TlsEntryFor anyClass (certCluster ings) host ns ing itls)
    : ns = certNamespace ings ∧ itls = ⟨some (str "cert"), [str "foo.com"]⟩ := by
  rcases h with ⟨⟨hns, hing, -⟩, hitls, -⟩
  rw [hashValues_certCluster, List.mem_singleton] at hns
  subst hns
  refine ⟨rfl, ?_⟩
  rcases hings ing hing with rfl | rfl
  . simpa [webTlsIngress] using hitls
  . simp [wwwIngress] at hitls

theorem namesGoodSecret_certCluster (host : Str) (ns : Namespace) (ing : Ingress) (itls : IngressTls)
    (h : TlsEntryFor anyClass (certCluster ings) host ns ing itls)
    : ∃ secret, NamesGoodSecret plainEnv ns itls secret := by
  rcases h.of_certCluster hings with ⟨rfl, rfl⟩
  exact ⟨certSecret "cert", str "cert", rfl, (namespaceGetSecret_certNamespace ings).1, rfl⟩

theorem not_explicitSecret_wild (host : Str)
    : ¬ ExplicitSecret plainEnv anyClass (certCluster ings) host (certSecret "wild") := by
  rintro ⟨ns, ing, itls, hentry, hgood⟩
  rcases hentry.of_certCluster hings with ⟨rfl, rfl⟩
  have heq := hgood.unique rfl (namespaceGetSecret_certNamespace ings).1
  have hname := congrArg Secret.seName heq
  revert hname
  decide

end

theorem exists_tlsEntryFor_certCluster {ings : Hash Ingress} (hweb : webTlsIngress ∈ hashValues ings)
    : ∃ ns ing itls secret, TlsEntryFor anyClass (certCluster ings) (str "foo.com") ns ing itls
      ∧ (∀ hostname ∈ itls.itHosts, clusterDomainForNs (certCluster ings) hostname ns.nsName)
      ∧ NamesGoodSecret plainEnv ns itls secret := by
  refine ⟨certNamespace ings, webTlsIngress, ⟨some (str "cert"), [str "foo.com"]⟩, certSecret "cert",
    ⟨⟨?_, hweb, rfl⟩, ?_, ?_⟩, ?_, str "cert", rfl, (namespaceGetSecret_certNamespace ings).1, rfl⟩
  . simp [hashValues_certCluster]
  . simp [webTlsIngress]
  . simp
  . intro hostname _
    apply clusterDomainForNs_certCluster

theorem hasTlsFor_webTlsIngress (ings : Hash Ingress)
    : HasTlsFor anyClass (certCluster ings) (str "foo.com") (certNamespace ings, webTlsIngress) := by
  refine ⟨rfl, ⟨some (str "cert"), [str "foo.com"]⟩, ?_, str "cert", certSecret "cert", rfl,
    (namespaceGetSecret_certNamespace ings).1, ?_⟩
  . simp [webTlsIngress]
  . simp [clusterDomainForNs_certCluster]

theorem ruleAfterTls_wwwIngress (ings : Hash Ingress)
    : RuleAfterTls anyClass (certCluster ings) (str "foo.com")
        [(certNamespace ings, webTlsIngress), (certNamespace ings, wwwIngress)] := by
  refine ⟨[_], _, [], rfl, ⟨rfl, clusterDomainForNs_certCluster _ _ _, ?_⟩, ?_⟩
  . simp [wwwIngress]
  . rintro q hq ⟨-, itls, hitls, -⟩
    rw [List.mem_singleton] at hq
    simp [hq, wwwIngress] at hitls

/--
The context of a host with explicit TLS entries comes from one of them, unless a rule for the host is
visited behind the last of them and attaches the default certificate again.
-/
theorem rhCtx_explicit_iff (env : Env) (cfg : K8sConfig) (cs cs' : Cluster) (db : RemapDb) (host : Str)
    (h : remapDbFromCluster env cfg cs = .ok (db, cs'))
    (hentry : ∃ ns ing itls secret, TlsEntryFor cfg cs host ns ing itls
      ∧ (∀ hostname ∈ itls.itHosts, clusterDomainForNs cs hostname ns.nsName)
      ∧ NamesGoodSecret env ns itls secret)
    (hall : ∀ ns ing itls, TlsEntryFor cfg cs host ns ing itls →
      ∃ secret, NamesGoodSecret env ns itls secret)
    : (∃ rh, remapDbGetHost db host = some rh ∧ CtxExplicit env cfg cs host rh.rhCtx)
        ↔
      ¬ (RuleAfterTls cfg cs host (visitOrder cs)
        ∧ ∃ dflt, defaultSecret cs host = some dflt
          ∧ ¬ CtxExplicit env cfg cs host (secretMakeSslCtx env dflt)) := by
  rcases tls_mem_opsFor_of_entry hentry with ⟨secret, hmem⟩
  rw [exists_rhCtx_iff h hmem]
  cases hdflt : defaultSecret cs host with
  | none => simpa using ctxExplicit_of_no_default hall hmem hdflt
  | some dflt => simpa using ctxExplicit_iff_of_default hall hmem hdflt

theorem rhCtx_explicit_webTls
    : ∃ db cs' rh,
        remapDbFromCluster plainEnv anyClass (certCluster ownIngresses) = .ok (db, cs')
          ∧ remapDbGetHost db (str "foo.com") = some rh
          ∧ CtxExplicit plainEnv anyClass (certCluster ownIngresses) (str "foo.com") rh.rhCtx := by
  have hings : ∀ ing ∈ hashValues ownIngresses, ing = webTlsIngress ∨ ing = wwwIngress := by
    simp [hashValues_ownIngresses]
  rcases builds_certCluster hings with ⟨⟨db, cs'⟩, hbuild⟩
  have hiff := rhCtx_explicit_iff plainEnv anyClass _ cs' db (str "foo.com") hbuild
    (exists_tlsEntryFor_certCluster (by simp [hashValues_ownIngresses])) (namesGoodSecret_certCluster hings _)
  have hafter : ¬ RuleAfterTls anyClass (certCluster ownIngresses) (str "foo.com")
      (visitOrder (certCluster ownIngresses)) := by
    rw [visitOrder_certCluster, hashValues_ownIngresses, List.map_singleton, ← List.nil_append [_],
      ruleAfterTls_concat_iff]
    intro hafter
    exact hafter.1 (hasTlsFor_webTlsIngress _)
  rcases hiff.mpr (fun hcond => hafter hcond.1) with ⟨rh, hget, hctx⟩
  exact ⟨db, cs', rh, hbuild, hget, hctx⟩

-- The Ingress "www" is visited behind "web", and its rule replaces the certificate of "web".
theorem not_rhCtx_explicit
    : ¬ ∀ (env : Env) (cfg : K8sConfig) (cs cs' : Cluster) (db : RemapDb) (host : Str),
        remapDbFromCluster env cfg cs = .ok (db, cs') →
        (∃ ns ing itls secret, TlsEntryFor cfg cs host ns ing itls
          ∧ (∀ hostname ∈ itls.itHosts, clusterDomainForNs cs hostname ns.nsName)
          ∧ NamesGoodSecret env ns itls secret) →
        (∀ ns ing itls, TlsEntryFor cfg cs host ns ing itls →
          ∃ secret, NamesGoodSecret env ns itls secret) →
        ∃ rh, remapDbGetHost db host = some rh ∧ CtxExplicit env cfg cs host rh.rhCtx := by
  intro hcontexts
  have hings : ∀ ing ∈ hashValues bothIngresses, ing = webTlsIngress ∨ ing = wwwIngress := by
    simp [hashValues_bothIngresses]
  have hall := namesGoodSecret_certCluster hings (str "foo.com")
  have hweb : webTlsIngress ∈ hashValues bothIngresses := by
    simp [hashValues_bothIngresses]
  have hentry := exists_tlsEntryFor_certCluster hweb
  rcases builds_certCluster hings with ⟨⟨db, cs'⟩, hbuild⟩
  rcases tls_mem_opsFor_of_entry hentry with ⟨secret, hmem⟩
  have hctx := hcontexts plainEnv anyClass _ cs' db (str "foo.com") hbuild hentry hall
  rw [exists_rhCtx_iff hbuild hmem,
    ctxExplicit_iff_of_default hall hmem (defaultSecret_certCluster _)] at hctx
  apply hctx
  constructor
  . rw [visitOrder_certCluster, hashValues_bothIngresses]
    exact ruleAfterTls_wwwIngress _
  . rintro ⟨secret', heq, -, hexplicit⟩
    have hctxs : some (SslCtx.mk (certSecret "wild")) = some ⟨secret'⟩ := heq
    rw [Option.some.injEq, SslCtx.mk.injEq] at hctxs
    rw [← hctxs] at hexplicit
    exact not_explicitSecret_wild hings _ hexplicit
