import TsIngress.Remap.Lemmas.Run

/-!
This module contains the URL path that `remap_run` puts together from the target of a path and the part
of the request path that the path did not match.
-/

-- The size given to `snprintf` is that of the text, so nothing is cut off.
theorem rewrittenPath_of_target {rp : RemapPath} {target : Str} (htarget : rp.rpRewriteTarget = some target)
    (path : Str) (pfxsz : Nat)
    : rewrittenPath rp (some path) pfxsz = some (target ++ path.drop pfxsz) := by
  unfold rewrittenPath
  rw [htarget]
  dsimp only
  unfold snprintf
  rw [List.take_of_length_le]
  rw [List.length_append]
  rw [List.length_drop]
  omega

def RR.Rewritten (code : RR) : Prop :=
  code = .ok ∨ code = .errInvalidProtocol ∨ code = .errNoBackend

theorem RR.Rewritten.ne_synthetic {code : RR} (h : code.Rewritten) : code ≠ .synthetic := by
  rcases h with h | h | h <;> simp [h]

theorem remapRunAuthorized.rzUrlpath {env : Env} {req : RemapRequest} {rp : RemapPath} {pfxsz rnd : Nat}
    {res res' : RemapResult} {code : RR}
    (h : remapRunAuthorized env req rp pfxsz rnd res = .ok (code, res')) (hcode : code.Rewritten)
    : res'.rzUrlpath = rewrittenPath rp req.rrPath pfxsz := by
  have hne := hcode.ne_synthetic
  cases outcome h with
  | cors => exact absurd rfl hne
  | appRoot => exact absurd rfl hne
  | invalidProtocol => rfl
  | noBackend => rfl
  | picked hproto haddrs => rfl

theorem remapRun.rzUrlpath {env : Env} {db : RemapDb} {req : RemapRequest} {host : Str} {rh : RemapHost}
    {rp : RemapPath} {pfxsz rnd : Nat} {res : RemapResult} {code : RR}
    (hsel : Selects env db req host rh rp pfxsz) (h : remapRun env db req rnd = .ok (code, res))
    (hcode : code.Rewritten)
    : res.rzUrlpath = rewrittenPath rp req.rrPath pfxsz := by
  have hne := hcode.ne_synthetic
  cases outcome h with
  | healthcheck hhealth => exact absurd rfl hne
  | invalidHost hhealth => simp [RR.Rewritten] at hcode
  | noHost hhealth => simp [RR.Rewritten] at hcode
  | tls hhealth hsel' => exact absurd rfl hne
  | denied hhealth hsel' hdenied => rcases hdenied with rfl | rfl <;> simp [RR.Rewritten] at hcode
  | authorized hhealth hsel' hrun =>
    rcases hsel.unique hsel' with ⟨rfl, rfl, rfl, rfl⟩
    exact remapRunAuthorized.rzUrlpath hrun hcode

-- There is no request path, or no path of an Ingress matches it.
def RoutedToDefault (env : Env) (rh : RemapHost) (path : Option Str) : Prop :=
  ∀ p, path = some p → ∀ rp ∈ rh.rhPaths.tail, rp.rpRegex.bind (fun pat => env.regexec pat p) = none

theorem RoutedToDefault.remapHostFindPath_eq {env : Env} {rh : RemapHost} {path : Option Str}
    (h : RoutedToDefault env rh path)
    : remapHostFindPath env rh path = (rh.rhPaths.head?, 0) := by
  have hgo : ∀ p, path = some p → ∀ paths, (∀ rp ∈ paths, rp ∈ rh.rhPaths.tail) →
      remapHostFindPath.go env rh p paths = (rh.rhPaths.head?, 0) := by
    intro p hp paths hpaths
    induction paths with
    | nil => rfl
    | cons rp paths ih =>
      rw [List.forall_mem_cons] at hpaths
      unfold remapHostFindPath.go
      rw [h p hp rp hpaths.1]
      exact ih hpaths.2
  unfold remapHostFindPath
  cases path with
  | none => rfl
  | some p =>
    apply hgo p rfl
    intro rp hrp
    exact hrp

theorem rewrittenPath_zero_eq_iff (rp : RemapPath) (path : Option Str)
    : rewrittenPath rp path 0 = path
        ↔
      rp.rpRewriteTarget = none ∨ (rp.rpRewriteTarget = some [] ∧ path.isSome) := by
  cases htarget : rp.rpRewriteTarget with
  | none => simp [rewrittenPath, htarget]
  | some target =>
    cases path with
    | none => simp [rewrittenPath, htarget]
    | some path =>
      rw [rewrittenPath_of_target htarget, List.drop_zero]
      simp

/--
A request that goes to the default path of its host keeps its path exactly if the default path has no
target to rewrite it to, or the empty one and there is a path to put it before.
-/
theorem remapRun_defaultPath_iff (env : Env) (db : RemapDb) (req : RemapRequest) (rnd : Nat) (host : Str)
    (rh : RemapHost) (rp : RemapPath) (res : RemapResult) (hhost : req.rrHost = some host)
    (hget : remapDbGetHost db host = some rh) (hdefault : rh.rhPaths.head? = some rp)
    (hroute : RoutedToDefault env rh req.rrPath) (hok : remapRun env db req rnd = .ok (.ok, res))
    : res.rzUrlpath = req.rrPath
        ↔
      rp.rpRewriteTarget = none ∨ (rp.rpRewriteTarget = some [] ∧ req.rrPath.isSome) := by
  have hne : host ≠ [] := by
    rcases remapRun.inv_of_ok hok with ⟨host', -, -, -, ⟨hhost', hne, -, -⟩, -⟩
    rw [hhost, Option.some.injEq] at hhost'
    rw [hhost']
    exact hne
  have hfind := hroute.remapHostFindPath_eq
  rw [hdefault] at hfind
  have hurl := remapRun.rzUrlpath ⟨hhost, hne, hget, hfind⟩ hok (.inl rfl)
  rw [hurl]
  apply rewrittenPath_zero_eq_iff

def servedPath (target : Option Str) : RemapPath :=
  { remapPathDefault with
    rpRewriteTarget := target
    rpAddrs := [⟨str "10.0.0.1", 80⟩] }

theorem remapRun_servedPath (target : Option Str) (path : Str) (hpath : path ≠ str "__trafficserver_alive")
    : ∃ res, remapRun plainEnv (pathDb (servedPath target)) (getRequest path) 0 = .ok (.ok, res) := by
  rw [remapRun.eq_of_selects 0 (selects_pathDb _ _) (healthcheckMatches_pathDb _ _ hpath)
    (rrCheckTls_pathDb _ _ _ rfl)]
  exact ⟨_, rfl⟩

theorem routedToDefault_pathHost (rp : RemapPath) (path : Option Str)
    : RoutedToDefault plainEnv (pathHost rp) path := by
  intro p _ rp' hrp'
  cases hrp'

-- The target of the annotation `rewrite-target: /` is empty.
theorem remapRun_defaultPath_servedPath
    : ∃ res, remapRun plainEnv (pathDb (servedPath (some []))) (getRequest (str "x")) 0 = .ok (.ok, res)
        ∧
      res.rzUrlpath = some (str "x") := by
  rcases remapRun_servedPath (some []) (str "x") (by decide) with ⟨res, hok⟩
  refine ⟨res, hok, ?_⟩
  exact (remapRun_defaultPath_iff _ _ _ _ _ _ _ _ rfl (selects_pathDb _ (str "x")).2.2.1 rfl
    (routedToDefault_pathHost _ _) hok).mpr (.inr ⟨rfl, rfl⟩)

-- The annotation `rewrite-target: /app` on an Ingress without a path.
theorem not_remapRun_defaultPath
    : ¬ ∀ (env : Env) (db : RemapDb) (req : RemapRequest) (rnd : Nat) (host : Str) (rh : RemapHost)
        (rp : RemapPath) (res : RemapResult),
        req.rrHost = some host →
        remapDbGetHost db host = some rh →
        rh.rhPaths.head? = some rp →
        RoutedToDefault env rh req.rrPath →
        remapRun env db req rnd = .ok (.ok, res) →
        res.rzUrlpath = req.rrPath := by
  intro hdefault
  rcases remapRun_servedPath (some (str "app")) (str "x") (by decide) with ⟨res, hok⟩
  have hsel := selects_pathDb (servedPath (some (str "app"))) (str "x")
  have hroute := routedToDefault_pathHost (servedPath (some (str "app"))) (some (str "x"))
  have hkept := hdefault _ _ _ _ _ _ _ _ rfl hsel.2.2.1 rfl hroute hok
  rw [remapRun.rzUrlpath hsel hok (.inl rfl)] at hkept
  revert hkept
  decide
