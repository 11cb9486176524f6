import TsIngress.Remap.Lemmas.Auth

/-!
This module contains which settings of a path a request may find unset. Every annotation is optional, and
the only setting that `remap_run` reads without looking is the realm.
-/

theorem remapPathAnnotate_rpAuthRealm_eq_none_iff {env : Env} {ns : Namespace} {rp rp' : RemapPath}
    {annotations : Hash Str} (h : remapPathAnnotate env ns rp annotations = .ok rp')
    (hrp : rp.rpAuthRealm = none)
    : rp'.rpAuthRealm = none ↔ hashGet annotations inAuthRealm = none := by
  have hstep : ∀ {rp rp' : RemapPath} {e : Str × Str},
      remapPathAnnotateOne env ns rp e.1 e.2 = .ok rp' →
      rp'.rpAuthRealm = if e.1 = inAuthRealm then some e.2 else rp.rpAuthRealm := by
    intro rp rp' e hstep
    exact (remapPathAnnotateOne.proj_of_ok hstep).2.2.2.2
  rw [ChainTable.get_eq_none_iff]
  constructor
  . intro hnone e he hkey
    have hsome : rp'.rpAuthRealm.isSome := by
      apply ExceptFold.foldlM_establish (P := fun rp : RemapPath => rp.rpAuthRealm.isSome) he _ _ h
      . intro rp rp' hone
        rw [hstep hone, if_pos hkey]
        rfl
      . intro rp e rp' _ hrp hone
        rw [hstep hone]
        split
        . rfl
        . exact hrp
    rw [hnone] at hsome
    cases hsome
  . intro hkeys
    apply ExceptFold.foldlM_invariant (P := fun rp : RemapPath => rp.rpAuthRealm = none) _ hrp h
    intro rp e rp' he hrp hone
    rw [hstep hone, if_neg (hkeys e he)]
    exact hrp

-- A path as `remap_path_new` and `remap_path_annotate` make it, with any targets.
def AnnotatedFrom (env : Env) (ns : Namespace) (annotations : Hash Str) (rp : RemapPath) : Prop :=
  ∃ path new annotated, remapPathNew env path = some new
    ∧ remapPathAnnotate env ns new annotations = .ok annotated
    ∧ rp = { annotated with rpAddrs := rp.rpAddrs }

theorem AnnotatedFrom.rpAuthRealm_eq_none_iff {env : Env} {ns : Namespace} {annotations : Hash Str}
    {rp : RemapPath} (h : AnnotatedFrom env ns annotations rp)
    : rp.rpAuthRealm = none ↔ hashGet annotations inAuthRealm = none := by
  rcases h with ⟨path, new, annotated, hnew, hannotate, hrp⟩
  have hrealm : rp.rpAuthRealm = annotated.rpAuthRealm := by
    rw [hrp]
  rw [hrealm]
  exact remapPathAnnotate_rpAuthRealm_eq_none_iff hannotate (remapPathNew_auth hnew).2.2

structure Reaches (env : Env) (db : RemapDb) (req : RemapRequest) (host : Str) (rh : RemapHost)
    (rp : RemapPath) : Prop where
  health : healthcheckMatches db req ≠ .ok true
  selects : ∃ pfxsz, Selects env db req host rh rp pfxsz
  tls : (rrCheckTls req host rh rp (.selected rh rp)).1 ≠ .synthetic

theorem remapHostFindPath_go_mem {env : Env} {rh : RemapHost} {path : Str} {paths : List RemapPath}
    (hpaths : ∀ rp ∈ paths, rp ∈ rh.rhPaths) {rp : RemapPath} {pfxsz : Nat}
    (h : remapHostFindPath.go env rh path paths = (some rp, pfxsz))
    : rp ∈ rh.rhPaths := by
  induction paths with
  | nil =>
    rw [remapHostFindPath.go, Prod.mk.injEq] at h
    exact List.mem_of_head? h.1
  | cons first rest ih =>
    rw [List.forall_mem_cons] at hpaths
    rw [remapHostFindPath.go] at h
    split at h
    . cases h
      exact hpaths.1
    . exact ih hpaths.2 h

theorem remapHostFindPath_mem {env : Env} {rh : RemapHost} {path : Option Str} {rp : RemapPath} {pfxsz : Nat}
    (h : remapHostFindPath env rh path = (some rp, pfxsz))
    : rp ∈ rh.rhPaths := by
  unfold remapHostFindPath at h
  cases path with
  | none =>
    dsimp only at h
    rw [Prod.mk.injEq] at h
    exact List.mem_of_head? h.1
  | some path =>
    apply remapHostFindPath_go_mem _ h
    intro rp hrp
    exact List.mem_of_mem_tail hrp

theorem Reaches.unique {env : Env} {db : RemapDb} {req : RemapRequest} {host : Str} {rh : RemapHost}
    {rp rp' : RemapPath} (h : Reaches env db req host rh rp) (h' : Reaches env db req host rh rp')
    : rp' = rp := by
  rcases h.selects with ⟨pfxsz, -, -, -, hfind⟩
  rcases h'.selects with ⟨pfxsz', -, -, -, hfind'⟩
  rw [hfind] at hfind'
  cases hfind'
  rfl

namespace remapRun

variable {env : Env} {db : RemapDb} {req : RemapRequest} {host : Str} {rh : RemapHost}

theorem returns_iff_of_selects {rp : RemapPath} {pfxsz : Nat} (rnd : Nat)
    (hsel : Selects env db req host rh rp pfxsz) (hno : healthcheckMatches db req = .ok false)
    (htls : (rrCheckTls req host rh rp (.selected rh rp)).1 ≠ .synthetic)
    : Except.Returns (remapRun env db req rnd)
        ↔
      ¬ (Challenged env req rp ∧ rp.rpAuthRealm = none)
        ∧
      ¬ (AuthPolicy env req rp ∧ QueryOverrun req rp) := by
  rw [eq_of_selects rnd hsel hno htls]
  by_cases hpolicy : AuthPolicy env req rp
  . have hnot : ¬ Challenged env req rp := by
      rw [challenged_iff]
      simp [hpolicy]
    rw [rrCheckAuth.of_policy _ hpolicy, Except.ok_bind]
    simp [remapRunAuthorized.returns_iff, hnot, hpolicy]
  . by_cases hip : AddressRefused env req rp
    . have hnot : ¬ Challenged env req rp := by
        rw [challenged_iff]
        simp [hip]
      rw [rrCheckAuth.of_addressRefused _ hip, Except.ok_bind]
      simp [hnot, hpolicy, Except.Returns.ok]
    . have hch : Challenged env req rp := by
        rw [challenged_iff]
        exact ⟨hpolicy, hip⟩
      rw [rrCheckAuth.of_challenged _ hch]
      unfold setWwwauthHeader
      cases rp.rpAuthRealm with
      | none => simp [hch, Except.Returns]
      | some realm => simp [hpolicy, Except.Returns]

theorem returns_of_not_reaches (rnd : Nat) (hhost : req.rrHost = some host)
    (hget : remapDbGetHost db host = some rh) (hno : healthcheckMatches db req = .ok false)
    (hnot : ∀ rp, ¬ Reaches env db req host rh rp)
    : Except.Returns (remapRun env db req rnd) := by
  unfold remapRun
  rw [hno, Except.ok_bind]
  simp only [hhost, hget]
  refine Except.Returns.ite (fun _ => Except.Returns.ok _) (fun _ => ?_)
  refine Except.Returns.ite (fun _ => Except.Returns.ok _) (fun hne => ?_)
  split
  . apply Except.Returns.ok
  . next rp pfxsz hfind =>
    split
    . next hok =>
      exfalso
      apply hnot rp
      refine ⟨by simp [hno], ⟨pfxsz, hhost, hne, hget, hfind⟩, ?_⟩
      unfold RemapResult.selected
      simp [hok]
    . apply Except.Returns.ok

theorem returns_iff (rnd : Nat) (hhost : req.rrHost = some host) (hget : remapDbGetHost db host = some rh)
    : Except.Returns (remapRun env db req rnd)
        ↔
      ¬ (db.rdHealthcheck = some [] ∧ req.rrPath.isSome)
        ∧
      ∀ rp, Reaches env db req host rh rp →
        ¬ (Challenged env req rp ∧ rp.rpAuthRealm = none)
          ∧
        ¬ (AuthPolicy env req rp ∧ QueryOverrun req rp) := by
  by_cases hhealth : healthcheckMatches db req = .ok true
  . have hreturns : Except.Returns (remapRun env db req rnd) := by
      unfold remapRun
      rw [hhealth, Except.ok_bind]
      apply Except.Returns.ok
    simp only [hreturns, true_iff]
    constructor
    . rintro ⟨hempty, hpath⟩
      rw [Option.isSome_iff_exists] at hpath
      rcases hpath with ⟨path, hpath⟩
      simp [healthcheckMatches, hempty, hpath] at hhealth
    . intro rp hreaches
      exact absurd hhealth hreaches.health
  . rcases healthcheckMatches_cases hhealth with ⟨hempty, hpath, hfault⟩ | ⟨hnonempty, hno⟩
    . unfold remapRun
      rw [hfault, Except.error_bind]
      simp [Except.Returns, hempty, hpath]
    . by_cases hreaches : ∃ rp, Reaches env db req host rh rp
      . rcases hreaches with ⟨rp, hreaches⟩
        rcases hreaches.selects with ⟨pfxsz, hsel⟩
        rw [returns_iff_of_selects rnd hsel hno hreaches.tls]
        constructor
        . intro h
          refine ⟨hnonempty, ?_⟩
          intro rp' hreaches'
          rw [hreaches.unique hreaches']
          exact h
        . intro h
          exact h.2 rp hreaches
      . rw [not_exists] at hreaches
        have hreturns := returns_of_not_reaches rnd hhost hget hno hreaches
        simp only [hreturns, true_iff]
        refine ⟨hnonempty, ?_⟩
        intro rp hrp
        exact absurd hrp (hreaches rp)

end remapRun

/--
A run for a host whose paths were made from a table of annotations comes to its end, unless the health
check path is empty, a challenge finds no realm in the table or the query filter runs over an end.
-/
theorem remapRun_completes_iff (env : Env) (ns : Namespace) (annotations : Hash Str) (db : RemapDb)
    (req : RemapRequest) (rnd : Nat) (host : Str) (rh : RemapHost) (hhost : req.rrHost = some host)
    (hget : remapDbGetHost db host = some rh)
    (hpaths : ∀ rp ∈ rh.rhPaths, AnnotatedFrom env ns annotations rp)
    : (∃ code res, remapRun env db req rnd = .ok (code, res))
        ↔
      ¬ (db.rdHealthcheck = some [] ∧ req.rrPath.isSome)
        ∧
      ∀ rp, Reaches env db req host rh rp →
        ¬ (Challenged env req rp ∧ hashGet annotations inAuthRealm = none)
          ∧
        ¬ (AuthPolicy env req rp ∧ QueryOverrun req rp) := by
  have hreturns : (∃ code res, remapRun env db req rnd = .ok (code, res))
      ↔ Except.Returns (remapRun env db req rnd) := by
    unfold Except.Returns
    rw [Prod.exists]
  have hrealm : ∀ rp, Reaches env db req host rh rp →
      (rp.rpAuthRealm = none ↔ hashGet annotations inAuthRealm = none) := by
    intro rp hreaches
    rcases hreaches.selects with ⟨pfxsz, -, -, -, hfind⟩
    exact (hpaths rp (remapHostFindPath_mem hfind)).rpAuthRealm_eq_none_iff
  rw [hreturns, remapRun.returns_iff rnd hhost hget]
  apply and_congr_right
  intro _
  apply forall_congr'
  intro rp
  apply imp_congr_right
  intro hreaches
  rw [hrealm rp hreaches]

theorem annotatedFrom_pathHost {rp : RemapPath} {annotations : Hash Str} {ns : Namespace}
    (h : remapPathAnnotate plainEnv ns remapPathDefault annotations = .ok rp)
    : ∀ rp' ∈ (pathHost rp).rhPaths, AnnotatedFrom plainEnv ns annotations rp' := by
  intro rp' hrp'
  rw [List.mem_singleton.mp hrp']
  exact ⟨none, _, rp, rfl, h, rfl⟩

theorem remapRun_completes_defaultPath
    : ∃ code res, remapRun plainEnv (pathDb remapPathDefault) (getRequest []) 0 = .ok (code, res) := by
  have hannotate : remapPathAnnotate plainEnv (namespaceMake []) remapPathDefault (hashNew 127)
      = .ok remapPathDefault := by
    rfl
  have hpaths := annotatedFrom_pathHost hannotate
  rw [remapRun_completes_iff plainEnv (namespaceMake []) (hashNew 127) (pathDb remapPathDefault)
    (getRequest []) 0 (str "foo.com") (pathHost remapPathDefault) rfl (selects_pathDb _ []).2.2.1 hpaths]
  constructor
  . simp [pathDb, str]
  . intro rp hreaches
    rcases hreaches.selects with ⟨pfxsz, -, -, -, hfind⟩
    have hrp := List.mem_singleton.mp (remapHostFindPath_mem hfind)
    subst hrp
    constructor
    . rintro ⟨⟨hne, -⟩, -⟩
      exact hne rfl
    . rintro ⟨-, -, -, query, hquery, -⟩
      cases hquery

-- The annotation `auth-type: basic` alone, and a request without credentials.
theorem not_remapRun_completes
    : ¬ ∀ (env : Env) (ns : Namespace) (annotations : Hash Str) (db : RemapDb) (req : RemapRequest)
        (rnd : Nat) (host : Str) (rh : RemapHost),
        req.rrHost = some host →
        remapDbGetHost db host = some rh →
        (∀ rp ∈ rh.rhPaths, AnnotatedFrom env ns annotations rp) →
        ∃ code res, remapRun env db req rnd = .ok (code, res) := by
  intro hcompletes
  have hpaths := annotatedFrom_pathHost (remapPathAnnotate_basicAuthPath plainEnv (namespaceMake []))
  have hsel := selects_pathDb basicAuthPath []
  have hhealth := healthcheckMatches_pathDb basicAuthPath [] (by decide)
  have htls := rrCheckTls_pathDb basicAuthPath [] (.selected (pathHost basicAuthPath) basicAuthPath) rfl
  rcases hcompletes plainEnv _ _ (pathDb basicAuthPath) (getRequest []) 0 _ _ rfl hsel.2.2.1 hpaths with
    ⟨code, res, hok⟩
  have hrun := (remapRun.returns_iff_of_selects 0 hsel hhealth htls).mp ⟨_, hok⟩
  apply hrun.1
  refine ⟨⟨by decide, by decide, .inl rfl⟩, rfl⟩
