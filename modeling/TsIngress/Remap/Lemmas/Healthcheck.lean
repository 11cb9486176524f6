import TsIngress.Api.Lemmas.ConfigOption
import TsIngress.Remap.Lemmas.Build
import TsIngress.Remap.Lemmas.Rewrite

/-!
This module contains the path of the health check: what a ConfigMap leaves of it, and the requests that it
answers.
-/

theorem remapRun.answers_iff {env : Env} {db : RemapDb} {req : RemapRequest} {answered : Bool}
    (hhealth : healthcheckMatches db req = .ok answered) (rnd : Nat)
    : (∃ res, remapRun env db req rnd = .ok (.synthetic, res) ∧ res.rzStatus = 200)
        ↔
      answered = true := by
  constructor
  . rintro ⟨res, h, hstatus⟩
    cases outcome h with
    | healthcheck hhealth' =>
      rw [hhealth, Except.ok.injEq] at hhealth'
      exact hhealth'
    | tls hhealth' hsel => cases hstatus
    | denied hhealth' hsel hcode => simp at hcode
    | authorized hhealth' hsel hrun =>
      cases remapRunAuthorized.outcome hrun with
      | cors => cases hstatus
      | appRoot => cases hstatus
  . intro hanswered
    unfold remapRun
    rw [hhealth, Except.ok_bind, if_pos hanswered]
    exact ⟨_, rfl, rfl⟩

-- The test before the path is replaced is of the default, so every value is taken.
theorem clusterConfigOf_ccHealthcheck (cm : ConfigMap)
    : (clusterConfigOf cm).ccHealthcheck
        =
      (hashGet cm.cmData (str "healthcheck-path")).getD clusterConfigNew.ccHealthcheck := by
  have hkeeps := @ConfigMap.option_keeps _ ClusterConfig.ccHealthcheck
  have hset : ∀ cc, cc.ccHealthcheck = clusterConfigNew.ccHealthcheck →
      (cm.option (str "healthcheck-path") clusterConfigOf.setHealthcheck cc).ccHealthcheck
        = (hashGet cm.cmData (str "healthcheck-path")).getD clusterConfigNew.ccHealthcheck := by
    intro cc hcc
    unfold ConfigMap.option
    split
    . next h => rw [h, hcc, Option.getD_none]
    . next s h =>
      rw [h, Option.getD_some, clusterConfigOf.setHealthcheck, hcc, if_neg (by decide)]
  unfold clusterConfigOf
  dsimp only
  rw [hkeeps (clusterConfigAddDomains_keeps fun _ _ => rfl)]
  apply hset
  rw [hkeeps (clusterConfigAddCerts_keeps fun _ _ => rfl)]
  rw [hkeeps (ClusterConfig.setTlsMinimumVersion_keeps fun _ _ _ => rfl)]
  rw [hkeeps, hkeeps, hkeeps]
  . intro cc s
    rfl
  . intro cc s
    rfl
  . intro cc s
    rfl

def lastHealthcheck (cms : List (Option ConfigMap)) : Option Str := do
  let cm ← (cms.getLast?).join
  hashGet cm.cmData (str "healthcheck-path")

theorem ccHealthcheck_clusterSetConfigmap (cs : Cluster) (cms : List (Option ConfigMap))
    (hcs : cs.csConfig = clusterConfigNew)
    : (cms.foldl clusterSetConfigmap cs).csConfig.ccHealthcheck
        =
      (lastHealthcheck cms).getD clusterConfigNew.ccHealthcheck := by
  rcases List.eq_nil_or_concat' cms with rfl | ⟨before, cm, rfl⟩
  . rw [List.foldl_nil, hcs]
    rfl
  . rw [List.foldl_concat, lastHealthcheck, List.getLast?_concat]
    cases cm with
    | none => rfl
    | some cm => exact clusterConfigOf_ccHealthcheck cm

-- The path is absolute, `remap_run` reads it within its bounds, and it answers the requests for this path.
structure HealthcheckAbsolute (cs : Cluster) : Prop where
  absolute : cs.csConfig.ccHealthcheck.head? = some 47
  inBounds : ∀ {env cfg db cs'}, remapDbFromCluster env cfg cs = .ok (db, cs') →
    ∀ req, (healthcheckMatches db req).Returns
  answers : ∀ {env cfg db cs'}, remapDbFromCluster env cfg cs = .ok (db, cs') →
    ∀ req path, req.rrPath = some path → ∀ rnd,
      (∃ res, remapRun env db req rnd = .ok (.synthetic, res) ∧ res.rzStatus = 200)
        ↔
      47 :: path = cs.csConfig.ccHealthcheck

theorem healthcheckAbsolute_iff (cs : Cluster)
    : HealthcheckAbsolute cs ↔ cs.csConfig.ccHealthcheck.head? = some 47 := by
  constructor
  . intro h
    exact h.absolute
  . intro habsolute
    rcases hpath : cs.csConfig.ccHealthcheck with _ | ⟨c, rest⟩
    . simp [hpath] at habsolute
    . rw [hpath, List.head?_cons, Option.some.injEq] at habsolute
      subst habsolute
      have hmatches : ∀ {env cfg db cs'}, remapDbFromCluster env cfg cs = .ok (db, cs') →
          ∀ req, healthcheckMatches db req = .ok (req.rrPath == some rest) := by
        intro env cfg db cs' hdb req
        have hhealth := (remapDbFromCluster.eq_of_ok hdb).2.2
        rw [hpath] at hhealth
        unfold healthcheckMatches
        rw [hhealth]
        cases req.rrPath with
        | none => rfl
        | some path => rfl
      constructor
      . rw [hpath, List.head?_cons]
      . intro env cfg db cs' hdb req
        exact ⟨_, hmatches hdb req⟩
      . intro env cfg db cs' hdb req path hreq rnd
        rw [remapRun.answers_iff (hmatches hdb req), hreq, hpath]
        simp

/--
The path of the health check stays absolute exactly if the last ConfigMap that was set has no path of its
own or an absolute one.
-/
theorem clusterSetConfigmap_healthcheck_iff (cs : Cluster) (cms : List (Option ConfigMap))
    (hcs : cs.csConfig = clusterConfigNew)
    : HealthcheckAbsolute (cms.foldl clusterSetConfigmap cs)
        ↔
      ∀ path, lastHealthcheck cms = some path → path.head? = some 47 := by
  rw [healthcheckAbsolute_iff, ccHealthcheck_clusterSetConfigmap cs cms hcs]
  cases lastHealthcheck cms with
  | none => simp [clusterConfigNew, str]
  | some path => simp

def healthcheckMap (path : String) : ConfigMap where
  cmName := str "ingress"
  cmNamespace := str "kube-system"
  cmData := hashSet (hashNew 127) (str "healthcheck-path") (str path)

theorem lastHealthcheck_healthcheckMap (path : String)
    : lastHealthcheck [some (healthcheckMap path)] = some (str path) := by
  unfold lastHealthcheck healthcheckMap
  exact ChainTable.get_set_self _ _ _

theorem clusterSetConfigmap_healthcheck_alive
    : clusterMake.csConfig = clusterConfigNew
        ∧
      HealthcheckAbsolute (clusterSetConfigmap clusterMake (some (healthcheckMap "/alive"))) := by
  refine ⟨rfl, (clusterSetConfigmap_healthcheck_iff clusterMake [some (healthcheckMap "/alive")] rfl).mpr ?_⟩
  rw [lastHealthcheck_healthcheckMap]
  intro path hpath
  rw [← Option.some.inj hpath]
  decide

-- With an empty path the comparison of the first request reads behind the end of the string.
theorem not_clusterSetConfigmap_healthcheck
    : ¬ ∀ (cs : Cluster) (cms : List (Option ConfigMap)), cs.csConfig = clusterConfigNew →
        HealthcheckAbsolute (cms.foldl clusterSetConfigmap cs) := by
  intro hchecks
  have habsolute := (hchecks clusterMake [some (healthcheckMap "")] rfl).absolute
  rw [ccHealthcheck_clusterSetConfigmap _ _ rfl, lastHealthcheck_healthcheckMap] at habsolute
  cases habsolute
