import TsIngress.Remap.Lemmas.DefaultTls
import TsIngress.Remap.Lemmas.Targets
import TsIngress.Tsapi.Impl.Tls

/-!
This module contains which minimum TLS version a host of the database has, and what the hook makes of it.
-/

def SslVersion.value : SslVersion → Int
  | .ssl3 => inTlsVersion10Value - 1
  | .tls1 => inTlsVersion10Value
  | .tls11 => inTlsVersion11Value
  | .tls12 => inTlsVersion12Value
  | .tls13 => inTlsVersion12Value + 1

theorem tlsVersionRefused_iff {tlsVersion : Int} (hlegal : TlsVersionLegal tlsVersion) (version : SslVersion)
    : tlsVersionRefused tlsVersion (sslGetVersion version) = true ↔ version.value < tlsVersion := by
  rcases hlegal with rfl | rfl | rfl <;> cases version <;> decide

theorem handleTls_ctx_eq_some_iff (db : RemapDb) (conn : SslConn) (ctx : SslCtx)
    : (handleTls (some db) conn).ctx = some ctx
        ↔
      ∃ host rh, conn.serverName = some host ∧ remapDbGetHost db host = some rh ∧ rh.rhCtx = some ctx
        ∧ tlsVersionRefused rh.rhTlsVersion (sslGetVersion conn.version) = false := by
  unfold handleTls
  cases conn.serverName with
  | none => simp
  | some host =>
    dsimp only
    cases hget : remapDbGetHost db host with
    | none => simp [hget]
    | some rh =>
      dsimp only
      cases hctx : rh.rhCtx with
      | none => simp [hget, hctx]
      | some ctx' =>
        dsimp only
        split
        . next href => simp [hget, href]
        . next href => simp [hget, hctx, href]

def ingressVersion (cs : Cluster) (ing : Ingress) : Option Int :=
  match hashGet ing.inAnnotations inTlsMinimumVersion with
  | none => some cs.csConfig.ccTlsMinimumVersion
  | some s => tlsVersionValue s

def pathSetsVersion (cs : Cluster) (ns : Namespace) (ing : Ingress) (path : IngressPath) : Option Int :=
  if path.ipPath = none ∧ (path.ipServiceName.bind (namespaceGetService ns)).isSome then
    ingressVersion cs ing
  else
    none

theorem rhTlsVersion_of_pathStep {env : Env} {cs : Cluster} {ns : Namespace} {ing : Ingress}
    {path : IngressPath} {rh rh' : RemapHost} (h : PathStep env cs ns ing path rh rh')
    : rh'.rhTlsVersion = (pathSetsVersion cs ns ing path).getD rh.rhTlsVersion := by
  unfold pathSetsVersion
  cases h with
  | skip heq hwhy =>
    have hcond : ¬ (path.ipPath = none ∧ (path.ipServiceName.bind (namespaceGetService ns)).isSome) := by
      rintro ⟨hpath, hfound⟩
      rw [Option.isSome_iff_exists] at hfound
      rcases hfound with ⟨svc, hfound⟩
      rw [Option.bind_eq_some_iff] at hfound
      rcases hfound with ⟨name, hname, hsvc⟩
      rcases hwhy name svc hname hsvc with ⟨p, hp, -⟩
      rw [hpath] at hp
      cases hp
    rw [if_neg hcond, heq, Option.getD_none]
  | default name svc hname hsvc hpath rp rp' hrp hconf hpaths hctx hversion =>
    rw [hversion]
    simp only [hpath, hname, Option.bind_some, hsvc, Option.isSome_some, and_self, if_true,
      remapHostAnnotate, ingressVersion]
    cases hashGet ing.inAnnotations inTlsMinimumVersion <;> rfl
  | new name svc hname hsvc p hpath rp rp' hrp hconf hpaths hctx hversion =>
    simp [hpath, hversion]

def HostOp.setsVersion (cs : Cluster) : HostOp → Option Int
  | .rule _ ns ing paths => (paths.filterMap (pathSetsVersion cs ns ing)).getLast?
  | .tls _ => none

theorem HostOp.rhTlsVersion_of_ok {env : Env} {cs : Cluster} {op : HostOp} {rh rh' : RemapHost}
    (happly : op.apply env cs rh = .ok rh')
    : rh'.rhTlsVersion = (op.setsVersion cs).getD rh.rhTlsVersion := by
  cases op with
  | rule dflt ns ing paths =>
    have hpaths : rh'.rhTlsVersion = (paths.filterMap (pathSetsVersion cs ns ing)).getLast?.getD
        (rh.attachDefault env dflt).rhTlsVersion :=
      ExceptFold.foldlM_lastWrite (g := RemapHost.rhTlsVersion)
        (fun rh path rh' _ hstep => rhTlsVersion_of_pathStep (buildIngressPath_pathStep hstep)) happly
    rw [hpaths]
    cases dflt <;> rfl
  | tls secret =>
    cases happly
    rfl

theorem runOps_rhTlsVersion {env : Env} {cs : Cluster} {ops : List HostOp} {rh : RemapHost}
    (h : runOps env cs ops remapHostNew = .ok rh)
    : rh.rhTlsVersion = (ops.filterMap (HostOp.setsVersion cs)).getLast?.getD 0 := by
  exact ExceptFold.foldlM_lastWrite (g := RemapHost.rhTlsVersion)
    (fun rh op rh' _ happly => HostOp.rhTlsVersion_of_ok happly) h

def EntrySets (cfg : K8sConfig) (cs : Cluster) (host : Str) (v : Int) : Prop :=
  ∃ ns ing path svc, PathEntry cfg cs host ns ing path svc ∧ path.ipPath = none ∧ ingressVersion cs ing = some v

theorem entrySets_of_mem {cfg : K8sConfig} {cs : Cluster} {host : Str} {v : Int}
    (h : v ∈ (opsFor cfg cs host).filterMap (HostOp.setsVersion cs))
    : EntrySets cfg cs host v := by
  rw [List.mem_filterMap] at h
  rcases h with ⟨op, hop, hv⟩
  cases op with
  | rule dflt ns ing paths =>
    rw [rule_mem_opsFor_iff] at hop
    rcases hop with ⟨ns', hvisits, hdom, ⟨rule, hrule, hhost, rfl⟩, -, rfl⟩
    have hmem := List.mem_of_getLast? hv
    rw [List.mem_filterMap] at hmem
    rcases hmem with ⟨path, hpath, hsets⟩
    unfold pathSetsVersion at hsets
    split at hsets
    . next hcond =>
      rcases hcond with ⟨hnone, hfound⟩
      rw [Option.isSome_iff_exists] at hfound
      rcases hfound with ⟨svc, hfound⟩
      rw [Option.bind_eq_some_iff] at hfound
      exact ⟨ns', ing, path, svc, ⟨hvisits, ⟨rule, hrule, hhost, hpath⟩, hdom, hfound⟩, hnone, hsets⟩
    . cases hsets
  | tls secret => cases hv

theorem filterMap_setsVersion_ne_nil {cfg : K8sConfig} {cs : Cluster} {host : Str} {v : Int}
    (h : EntrySets cfg cs host v)
    : (opsFor cfg cs host).filterMap (HostOp.setsVersion cs) ≠ [] := by
  rcases h with ⟨ns, ing, path, svc, hentry, hnone, hversion⟩
  rcases hentry.rule with ⟨rule, hrule, hhost, hpath⟩
  rcases hentry.found with ⟨name, hname, hsvc⟩
  have hop : .rule (defaultSecret cs host) ns.objects ing rule.irPaths ∈ opsFor cfg cs host := by
    rw [rule_mem_opsFor_iff]
    exact ⟨ns, hentry.visits, hentry.permitted, ⟨rule, hrule, hhost, rfl⟩, rfl, rfl⟩
  have hsets : pathSetsVersion cs ns.objects ing path = some v := by
    have hsvc' : namespaceGetService ns.objects name = some svc := hsvc
    simp [pathSetsVersion, hnone, hname, hsvc', hversion]
  have hpaths : rule.irPaths.filterMap (pathSetsVersion cs ns.objects ing) ≠ [] := by
    apply List.ne_nil_of_mem
    rw [List.mem_filterMap]
    exact ⟨path, hpath, hsets⟩
  apply List.ne_nil_of_mem
  rw [List.mem_filterMap]
  exact ⟨_, hop, List.getLast?_eq_some_getLast hpaths⟩

def Relaxed (cfg : K8sConfig) (cs : Cluster) (host : Str) : Prop :=
  ∃ ns ing, Visits cfg cs ns ing ∧ clusterDomainForNs cs host ns.nsName
    ∧ (∃ rule ∈ ing.inRules, rule.irHost = some host ∧ ∃ path ∈ rule.irPaths, path.ipPath = none)
    ∧ ∃ s v, hashGet ing.inAnnotations inTlsMinimumVersion = some s ∧ tlsVersionValue s = some v

theorem EntrySets.cases {cfg : K8sConfig} {cs : Cluster} {host : Str} {v : Int}
    (h : EntrySets cfg cs host v)
    : v = cs.csConfig.ccTlsMinimumVersion ∨ TlsVersionLegal v ∧ Relaxed cfg cs host := by
  rcases h with ⟨ns, ing, path, svc, hentry, hnone, hversion⟩
  rcases hentry.rule with ⟨rule, hrule, hhost, hpath⟩
  unfold ingressVersion at hversion
  split at hversion
  . cases hversion
    exact .inl rfl
  . next s hs =>
    refine .inr ⟨tlsVersionValue_legal hversion, ns, ing, hentry.visits, hentry.permitted, ?_, s, v, hs, hversion⟩
    exact ⟨rule, hrule, hhost, path, hpath, hnone⟩

theorem EntrySets.legal {cfg : K8sConfig} {cs : Cluster} {host : Str} {v : Int}
    (h : EntrySets cfg cs host v)
    : TlsVersionLegal v := by
  rcases h.cases with rfl | ⟨hlegal, -⟩
  . exact cs.csConfig.tlsVersion_legal
  . exact hlegal

theorem rhTlsVersion_cases {env : Env} {cfg : K8sConfig} {cs cs' : Cluster} {db : RemapDb} {host : Str}
    {rh : RemapHost} (h : remapDbFromCluster env cfg cs = .ok (db, cs'))
    (hget : remapDbGetHost db host = some rh)
    : EntrySets cfg cs host rh.rhTlsVersion
        ∨
      rh.rhTlsVersion = 0 ∧ ∀ v, ¬ EntrySets cfg cs host v := by
  rcases (remapDbFromCluster.getHost_iff h host rh).mp hget with ⟨-, hrun⟩
  have hversion := runOps_rhTlsVersion hrun
  by_cases hnil : (opsFor cfg cs host).filterMap (HostOp.setsVersion cs) = []
  . right
    rw [hnil] at hversion
    refine ⟨hversion, ?_⟩
    intro v hv
    exact filterMap_setsVersion_ne_nil hv hnil
  . left
    rw [List.getLast?_eq_some_getLast hnil, Option.getD_some] at hversion
    apply entrySets_of_mem
    rw [hversion]
    exact List.getLast_mem hnil

structure VersionConfigured (cfg : K8sConfig) (cs : Cluster) (db : RemapDb) (host : Str) (rh : RemapHost)
    : Prop where
  legal : TlsVersionLegal rh.rhTlsVersion
  minimum : ¬ Relaxed cfg cs host → rh.rhTlsVersion = cs.csConfig.ccTlsMinimumVersion
  attaches : ¬ Relaxed cfg cs host → ∀ (conn : SslConn) (ctx : SslCtx), conn.serverName = some host →
    (handleTls (some db) conn).ctx = some ctx → cs.csConfig.ccTlsMinimumVersion ≤ conn.version.value

theorem le_value_of_handleTls {db : RemapDb} {host : Str} {rh : RemapHost} {conn : SslConn} {ctx : SslCtx}
    (hget : remapDbGetHost db host = some rh) (hlegal : TlsVersionLegal rh.rhTlsVersion)
    (hname : conn.serverName = some host) (hctx : (handleTls (some db) conn).ctx = some ctx)
    : rh.rhTlsVersion ≤ conn.version.value := by
  rw [handleTls_ctx_eq_some_iff] at hctx
  rcases hctx with ⟨host', rh', hname', hget', -, href⟩
  rw [hname] at hname'
  cases hname'
  rw [hget] at hget'
  cases hget'
  rw [← Int.not_lt, ← tlsVersionRefused_iff hlegal, href]
  simp

/--
The minimum version of the cluster reaches a host exactly if the host has an entry without a path, with a
service and with no version of its own that is not accepted.
-/
theorem versionConfigured_iff (env : Env) (cfg : K8sConfig) (cs cs' : Cluster) (db : RemapDb) (host : Str)
    (rh : RemapHost) (h : remapDbFromCluster env cfg cs = .ok (db, cs'))
    (hget : remapDbGetHost db host = some rh)
    : VersionConfigured cfg cs db host rh ↔ ∃ v, EntrySets cfg cs host v := by
  rcases rhTlsVersion_cases h hget with hsets | ⟨hzero, hnone⟩
  . have hmin : ¬ Relaxed cfg cs host → rh.rhTlsVersion = cs.csConfig.ccTlsMinimumVersion := by
      intro hrelaxed
      rcases hsets.cases with heq | ⟨-, hr⟩
      . exact heq
      . exact absurd hr hrelaxed
    refine iff_of_true ⟨hsets.legal, hmin, ?_⟩ ⟨_, hsets⟩
    intro hrelaxed conn ctx hname hctx
    rw [← hmin hrelaxed]
    exact le_value_of_handleTls hget hsets.legal hname hctx
  . refine iff_of_false ?_ ?_
    . intro hconf
      have hlegal := hconf.legal
      rw [hzero] at hlegal
      revert hlegal
      decide
    . rintro ⟨v, hv⟩
      exact hnone v hv

theorem versionConfigured_web
    : ∃ db cs' rh, remapDbFromCluster plainEnv anyClass webCluster = .ok (db, cs')
        ∧
      remapDbGetHost db (str "foo.com") = some rh
        ∧
      VersionConfigured anyClass webCluster db (str "foo.com") rh := by
  rcases remapDbFromCluster_returns plainEnv anyClass hasFields_webCluster passwordsEnd_webCluster
    with ⟨⟨db, cs'⟩, h⟩
  have hop : .rule (defaultSecret webCluster (str "foo.com")) webNamespace.objects webIngress [webPath]
      ∈ opsFor anyClass webCluster (str "foo.com") := by
    rw [rule_mem_opsFor_iff]
    refine ⟨webNamespace, webEntry.visits, rfl, ⟨⟨some (str "foo.com"), [webPath]⟩, ?_, rfl, rfl⟩, rfl, rfl⟩
    simp [webIngress]
  rcases remapDbFromCluster.runOps_of_ok h (List.ne_nil_of_mem hop) with ⟨rh, -, hget⟩
  refine ⟨db, cs', rh, h, hget, ?_⟩
  rw [versionConfigured_iff plainEnv anyClass webCluster cs' db (str "foo.com") rh h hget]
  exact ⟨_, webNamespace, webIngress, webPath, webService, webEntry, rfl, rfl⟩

-- The only rule for the host has no paths, so no minimum version gets there.
theorem not_versionConfigured
    : ¬ ∀ (env : Env) (cfg : K8sConfig) (cs cs' : Cluster) (db : RemapDb) (host : Str) (rh : RemapHost),
        remapDbFromCluster env cfg cs = .ok (db, cs') →
        remapDbGetHost db host = some rh →
        VersionConfigured cfg cs db host rh := by
  intro hconfigured
  have hings : ∀ ing ∈ hashValues ownIngresses, ing = webTlsIngress ∨ ing = wwwIngress := by
    simp [hashValues_ownIngresses]
  rcases builds_certCluster hings with ⟨⟨db, cs'⟩, h⟩
  have hweb : webTlsIngress ∈ hashValues ownIngresses := by
    simp [hashValues_ownIngresses]
  rcases tls_mem_opsFor_of_entry (exists_tlsEntryFor_certCluster hweb) with ⟨secret, hop⟩
  rcases remapDbFromCluster.runOps_of_ok h (List.ne_nil_of_mem hop) with ⟨rh, -, hget⟩
  have hlegal := (hconfigured plainEnv anyClass _ cs' db (str "foo.com") rh h hget).legal
  rcases rhTlsVersion_cases h hget with ⟨ns, ing, path, svc, hentry, -⟩ | ⟨hzero, -⟩
  . rcases hentry.visits with ⟨hns, hing, -⟩
    rw [hashValues_certCluster, List.mem_singleton] at hns
    subst hns
    rcases hentry.rule with ⟨rule, hrule, -, hpath⟩
    rcases hings ing hing with rfl | rfl
    . simp only [webTlsIngress, List.mem_singleton] at hrule
      simp [hrule] at hpath
    . simp only [wwwIngress, List.mem_singleton] at hrule
      simp [hrule] at hpath
  . rw [hzero] at hlegal
    revert hlegal
    decide
