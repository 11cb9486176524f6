import TsIngress.Remap.Lemmas.Annotate
import TsIngress.Remap.Lemmas.Run

/-!
This module contains the access decision of `remap_run`, compared with the policy of `docs/auth.md`.
-/

-- The policy of `docs/auth.md`.
def AuthPolicy (env : Env) (req : RemapRequest) (rp : RemapPath) : Prop :=
  (rp.rpAuthType = .none ∧ rp.rpAuthAddrList = [])
    ∨
  (rp.rpAuthType = .none ∧ rp.rpAuthAddrList ≠ [] ∧ authCheckAddress env req.rrAddr rp)
    ∨
  (rp.rpAuthType ≠ .none ∧ rp.rpAuthAddrList = [] ∧ authBasicOk env req rp)
    ∨
  (rp.rpAuthType ≠ .none ∧ rp.rpAuthAddrList ≠ [] ∧ rp.rpAuthSatisfy = .any
    ∧ (authCheckAddress env req.rrAddr rp ∨ authBasicOk env req rp))
    ∨
  (rp.rpAuthType ≠ .none ∧ rp.rpAuthAddrList ≠ [] ∧ rp.rpAuthSatisfy = .all
    ∧ authCheckAddress env req.rrAddr rp ∧ authBasicOk env req rp)

def AddressRefused (env : Env) (req : RemapRequest) (rp : RemapPath) : Prop :=
  rp.rpAuthAddrList ≠ []
    ∧
  (rp.rpAuthType = .none ∨ rp.rpAuthSatisfy = .all)
    ∧
  ¬ authCheckAddress env req.rrAddr rp

-- Credentials would help: the path asks for them, the request has no valid ones and the address
-- neither lets it in nor keeps it out.
def Challenged (env : Env) (req : RemapRequest) (rp : RemapPath) : Prop :=
  rp.rpAuthType ≠ .none
    ∧
  ¬ authBasicOk env req rp
    ∧
  (rp.rpAuthAddrList = [] ∨ (authCheckAddress env req.rrAddr rp ↔ rp.rpAuthSatisfy = .all))

theorem RemapSatisfy.any_or_all (s : RemapSatisfy) : s = .any ∨ s = .all := by
  cases s <;> simp

theorem challenged_iff (env : Env) (req : RemapRequest) (rp : RemapPath)
    : Challenged env req rp ↔ ¬ AuthPolicy env req rp ∧ ¬ AddressRefused env req rp := by
  unfold Challenged AuthPolicy AddressRefused
  rcases rp.rpAuthSatisfy.any_or_all with h | h <;> simp only [h] <;> grind

namespace rrCheckAuth

theorem of_policy {env : Env} {req : RemapRequest} {rp : RemapPath} (res : RemapResult)
    (h : AuthPolicy env req rp)
    : rrCheckAuth env req rp res = .ok (.ok, res) := by
  unfold AuthPolicy at h
  unfold rrCheckAuth
  rcases h with ⟨ht, hl⟩ | ⟨ht, hl, hip⟩ | ⟨ht, hl, hb⟩ | ⟨ht, hl, hs, hip | hb⟩ | ⟨ht, hl, hs, hip, hb⟩
  . simp [ht, hl]
  . simp [ht, hl, hip]
  . simp [ht, hl, hb]
  . simp [ht, hl, hs, hip]
  . simp [ht, hl, hs, hb]
  . simp [ht, hl, hs, hip, hb]

theorem of_addressRefused {env : Env} {req : RemapRequest} {rp : RemapPath} (res : RemapResult)
    (h : AddressRefused env req rp)
    : rrCheckAuth env req rp res = .ok (.errForbidden, res) := by
  unfold AddressRefused at h
  unfold rrCheckAuth
  rcases h with ⟨hl, ht | hs, hip⟩
  . simp [ht, hl, hip]
  . by_cases ht : rp.rpAuthType = .none
    . simp [ht, hl, hip]
    . simp [ht, hl, hs, hip]

theorem of_challenged {env : Env} {req : RemapRequest} {rp : RemapPath} (res : RemapResult)
    (h : Challenged env req rp)
    : rrCheckAuth env req rp res
        =
      (setWwwauthHeader rp res >>= fun res => .ok (.errUnauthorized, res)) := by
  unfold Challenged at h
  unfold rrCheckAuth
  rcases h with ⟨ht, hb, hl | hip⟩
  . simp [ht, hl, hb]
  . by_cases hl : rp.rpAuthAddrList = []
    . simp [ht, hl, hb]
    . rcases rp.rpAuthSatisfy.any_or_all with hs | hs
      . simp [hs] at hip
        simp [ht, hl, hb, hs, hip]
      . simp [hs] at hip
        simp [ht, hl, hb, hs, hip]

theorem ok_iff (env : Env) (req : RemapRequest) (rp : RemapPath) (res : RemapResult)
    : (∃ res', rrCheckAuth env req rp res = .ok (.ok, res')) ↔ AuthPolicy env req rp := by
  constructor
  . rintro ⟨res', h⟩
    by_contra hpolicy
    by_cases hip : AddressRefused env req rp
    . rw [of_addressRefused res hip] at h
      cases h
    . rw [of_challenged res ((challenged_iff env req rp).mpr ⟨hpolicy, hip⟩),
        Except.bind_eq_ok_iff] at h
      rcases h with ⟨res'', -, h⟩
      cases h
  . intro h
    exact ⟨res, of_policy res h⟩

end rrCheckAuth

theorem rrCheckCors_code (req : RemapRequest) (rp : RemapPath) (res : RemapResult)
    : (rrCheckCors req rp res).1 = .ok ∨ (rrCheckCors req rp res).1 = .synthetic := by
  unfold rrCheckCors rrCheckCors.preflight
  repeat' split
  all_goals simp

theorem rrCheckCors_code_congr (req : RemapRequest) (rp : RemapPath) (res res' : RemapResult)
    : (rrCheckCors req rp res).1 = (rrCheckCors req rp res').1 := by
  unfold rrCheckCors rrCheckCors.preflight
  repeat' split
  all_goals simp_all

theorem rrCheckAppRoot_ok_iff (req : RemapRequest) (rp : RemapPath) (res : RemapResult)
    : (rrCheckAppRoot req rp res).1 = .ok ↔ ¬ (rp.rpAppRoot.isSome ∧ req.rrPath = none) := by
  unfold rrCheckAppRoot
  split
  . next h1 h2 => simp [h1, h2]
  . next h =>
    cases hroot : rp.rpAppRoot <;> cases hpath : req.rrPath <;> simp_all

theorem rrCheckAppRoot_code (req : RemapRequest) (rp : RemapPath) (res : RemapResult)
    : (rrCheckAppRoot req rp res).1 = .ok ∨ (rrCheckAppRoot req rp res).1 = .synthetic := by
  unfold rrCheckAppRoot
  split <;> simp

theorem rrCheckProto_code (req : RemapRequest) (rp : RemapPath) (res : RemapResult)
    : (rrCheckProto req rp res).1 = .ok ∨ (rrCheckProto req rp res).1 = .errInvalidProtocol := by
  unfold rrCheckProto
  repeat' split
  all_goals simp

-- The request gets as far as its query, and the globs of the path run over an end there.
def QueryOverrun (req : RemapRequest) (rp : RemapPath) : Prop :=
  (rrCheckCors req rp {}).1 = .ok
    ∧
  ¬ (rp.rpAppRoot.isSome ∧ req.rrPath = none)
    ∧
  ∃ query, req.rrQuery = some query ∧ ∀ q, makeQuery rp query ≠ .ok q

def PassedAuth (run : Result (RR × RemapResult)) : Prop :=
  ∃ code res, run = .ok (code, res)
    ∧
  code ∈ [RR.ok, RR.synthetic, RR.errInvalidProtocol, RR.errNoBackend]

namespace remapRunAuthorized

theorem passedAuth_iff (env : Env) (req : RemapRequest) (rp : RemapPath) (pfxsz rnd : Nat)
    (res : RemapResult)
    : PassedAuth (remapRunAuthorized env req rp pfxsz rnd res) ↔ ¬ QueryOverrun req rp := by
  unfold remapRunAuthorized QueryOverrun
  rw [rrCheckCors_code_congr req rp {} res]
  have hcors := rrCheckCors_code req rp res
  split
  . next res1 h1 =>
    rw [h1]
    rw [← rrCheckAppRoot_ok_iff req rp res1]
    have hroot := rrCheckAppRoot_code req rp res1
    split
    . next res2 h2 =>
      rw [h2]
      have hover : (∃ query, req.rrQuery = some query ∧ ∀ q, makeQuery rp query ≠ .ok q)
          ↔ ∀ q, (req.rrQuery.map (makeQuery rp)).getD (.ok none) ≠ .ok q := by
        cases req.rrQuery <;> simp
      rw [hover]
      rcases Except.eq_ok_or_eq_error ((req.rrQuery.map (makeQuery rp)).getD (.ok none))
        with ⟨query, hquery⟩ | ⟨f, hquery⟩
      . rw [hquery, Except.ok_bind]
        simp only [true_and, ne_eq, not_forall, not_not]
        generalize { res2 with rzUrlpath := _, rzQuery := query } = res3
        have hproto := rrCheckProto_code req rp res3
        split
        . split <;> simp [PassedAuth]
        . next h3 =>
          rw [h3] at hproto
          rcases hproto with hproto | hproto <;> dsimp only at hproto <;> simp [PassedAuth, hproto]
      . rw [hquery, Except.error_bind]
        simp [PassedAuth]
    . next r res2 hne h2 =>
      rw [h2] at hroot ⊢
      simp_all [PassedAuth]
  . next r res1 hne h1 =>
    rw [h1] at hcors ⊢
    simp_all [PassedAuth]

theorem returns_iff (env : Env) (req : RemapRequest) (rp : RemapPath) (pfxsz rnd : Nat)
    (res : RemapResult)
    : Except.Returns (remapRunAuthorized env req rp pfxsz rnd res) ↔ ¬ QueryOverrun req rp := by
  constructor
  . rintro ⟨run, hrun⟩ ⟨hcors, hroot, query, hquery, hover⟩
    rw [rrCheckCors_code_congr req rp {} res] at hcors
    unfold remapRunAuthorized at hrun
    split at hrun
    . next res1 _ =>
      rw [← rrCheckAppRoot_ok_iff req rp res1] at hroot
      split at hrun
      . rw [hquery, Option.map_some, Option.getD_some, Except.bind_eq_ok_iff] at hrun
        rcases hrun with ⟨q, hq, -⟩
        exact hover q hq
      . next hne h2 =>
        rw [h2] at hroot
        exact hne hroot
    . next hne h1 =>
      rw [h1] at hcors
      exact hne hcors
  . intro hnot
    rcases (passedAuth_iff env req rp pfxsz rnd res).mpr hnot with ⟨code, res', hrun, -⟩
    exact ⟨_, hrun⟩

end remapRunAuthorized

def corsHeaders : List Str :=
  [str "Access-Control-Allow-Origin", str "Vary", str "Access-Control-Allow-Methods",
   str "Access-Control-Allow-Headers", str "Access-Control-Max-Age",
   str "Access-Control-Allow-Credentials"]

def DeniedWith (code : RR) (run : Result (RR × RemapResult)) : Prop :=
  ∃ res, run = .ok (code, res)
    ∧
  (code = .errUnauthorized → (hashGet res.rzHeaders (str "WWW-Authenticate")).isSome)
    ∧
  (∀ name ∈ corsHeaders, hashGet res.rzHeaders name = none)
    ∧
  res.rzTarget = none ∧ res.rzUrlpath = none ∧ res.rzQuery = none

-- What `remap_run` is documented to do with a request for a path.
def AccessAsDocumented (env : Env) (req : RemapRequest) (rp : RemapPath)
    (run : Result (RR × RemapResult)) : Prop :=
  (PassedAuth run ↔ AuthPolicy env req rp)
    ∧
  (¬ AuthPolicy env req rp → AddressRefused env req rp → DeniedWith .errForbidden run)
    ∧
  (¬ AuthPolicy env req rp → ¬ AddressRefused env req rp → DeniedWith .errUnauthorized run)

theorem DeniedWith.code_eq {code code' : RR} {run : Result (RR × RemapResult)} {res : RemapResult}
    (h : DeniedWith code run) (hrun : run = .ok (code', res))
    : code' = code := by
  rcases h with ⟨res', hrun', -⟩
  rw [hrun] at hrun'
  cases hrun'
  rfl

theorem not_passedAuth_of_deniedWith {code : RR} {run : Result (RR × RemapResult)}
    (h : DeniedWith code run) (hcode : code = .errForbidden ∨ code = .errUnauthorized)
    : ¬ PassedAuth run := by
  rintro ⟨code', res, hrun, hmem⟩
  rw [h.code_eq hrun] at hmem
  rcases hcode with hcode | hcode <;> simp [hcode] at hmem

theorem not_accessAsDocumented_error {env : Env} {req : RemapRequest} {rp : RemapPath} (f : Fault)
    : ¬ AccessAsDocumented env req rp (.error f) := by
  rintro ⟨hpass, hforbidden, hunauthorized⟩
  by_cases hpolicy : AuthPolicy env req rp
  . rcases hpass.mpr hpolicy with ⟨code, res, hrun, -⟩
    cases hrun
  . by_cases hip : AddressRefused env req rp
    . rcases hforbidden hpolicy hip with ⟨res, hrun, -⟩
      cases hrun
    . rcases hunauthorized hpolicy hip with ⟨res, hrun, -⟩
      cases hrun

theorem deniedWith_selected (rh : RemapHost) (rp : RemapPath)
    : DeniedWith .errForbidden (.ok (.errForbidden, .selected rh rp)) := by
  refine ⟨_, rfl, by simp, ?_, rfl, rfl, rfl⟩
  intro name _
  exact ChainTable.get_new _ _ _

theorem setWwwauthHeader_deniedWith (rh : RemapHost) (rp : RemapPath) (realm : Str)
    (h : rp.rpAuthRealm = some realm)
    : ∃ res,
        setWwwauthHeader rp (.selected rh rp) = .ok res
          ∧
        DeniedWith .errUnauthorized (.ok (.errUnauthorized, res)) := by
  unfold setWwwauthHeader
  rw [h, deref_some, Except.ok_bind]
  refine ⟨_, rfl, _, rfl, ?_, ?_, rfl, rfl, rfl⟩
  . intro _
    unfold setHeader
    simp
  . intro name hname
    have hne : name ≠ str "WWW-Authenticate" := by
      rintro rfl
      revert hname
      decide
    apply (ChainTable.get_set_ne _ _ _ _ hne).trans
    exact ChainTable.get_new _ _ _

theorem healthcheckMatches_cases {db : RemapDb} {req : RemapRequest}
    (h : healthcheckMatches db req ≠ .ok true)
    : (db.rdHealthcheck = some [] ∧ req.rrPath.isSome ∧ healthcheckMatches db req = .error .outOfBounds)
        ∨
      (¬ (db.rdHealthcheck = some [] ∧ req.rrPath.isSome) ∧ healthcheckMatches db req = .ok false) := by
  unfold healthcheckMatches at h ⊢
  split
  . next hpath hhealth => simp [hpath, hhealth]
  . next hpath hhealth => simp_all
  . next hnil hcons =>
    right
    refine ⟨?_, rfl⟩
    rintro ⟨hhealth, hpath⟩
    rw [Option.isSome_iff_exists] at hpath
    rcases hpath with ⟨path, hpath⟩
    exact hnil path hpath hhealth

/--
The access decision is the documented one, except where a step of it faults: the challenge needs the
realm, the health check reads behind an empty path, and the query filter may run over an end.
-/
theorem remapRun_accessAsDocumented_iff (env : Env) (db : RemapDb) (req : RemapRequest) (rnd : Nat)
    (host : Str) (rh : RemapHost) (rp : RemapPath) (pfxsz : Nat)
    (hsel : Selects env db req host rh rp pfxsz) (hhealth : healthcheckMatches db req ≠ .ok true)
    (htls : (rrCheckTls req host rh rp (.selected rh rp)).1 ≠ .synthetic)
    : AccessAsDocumented env req rp (remapRun env db req rnd)
        ↔
      ¬ (db.rdHealthcheck = some [] ∧ req.rrPath.isSome)
        ∧
      ¬ (Challenged env req rp ∧ rp.rpAuthRealm = none)
        ∧
      ¬ (AuthPolicy env req rp ∧ QueryOverrun req rp) := by
  rcases healthcheckMatches_cases hhealth with ⟨hempty, hpath, hfault⟩ | ⟨hnonempty, hno⟩
  . have hrun : remapRun env db req rnd = .error .outOfBounds := by
      unfold remapRun
      rw [hfault, Except.error_bind]
    rw [hrun]
    simp [not_accessAsDocumented_error, hempty, hpath]
  . have hrun := remapRun.eq_of_selects rnd hsel hno htls
    by_cases hpolicy : AuthPolicy env req rp
    . rw [rrCheckAuth.of_policy _ hpolicy, Except.ok_bind] at hrun
      have hnot : ¬ Challenged env req rp := by
        rw [challenged_iff]
        simp [hpolicy]
      simp [AccessAsDocumented, hrun, hpolicy, hnot, hnonempty, remapRunAuthorized.passedAuth_iff]
    . by_cases hip : AddressRefused env req rp
      . rw [rrCheckAuth.of_addressRefused _ hip, Except.ok_bind] at hrun
        have hnot : ¬ Challenged env req rp := by
          rw [challenged_iff]
          simp [hip]
        have hden := deniedWith_selected rh rp
        have hpass := not_passedAuth_of_deniedWith hden (by simp)
        simp [AccessAsDocumented, hrun, hpolicy, hip, hnot, hnonempty, hden, hpass]
      . have hch : Challenged env req rp := by
          rw [challenged_iff]
          exact ⟨hpolicy, hip⟩
        rw [rrCheckAuth.of_challenged _ hch] at hrun
        cases hrealm : rp.rpAuthRealm with
        | none =>
          unfold setWwwauthHeader at hrun
          rw [hrealm, deref_none, Except.error_bind, Except.error_bind, Except.error_bind] at hrun
          rw [hrun]
          simp [not_accessAsDocumented_error, hch]
        | some realm =>
          rcases setWwwauthHeader_deniedWith rh rp realm hrealm with ⟨res, hset, hden⟩
          rw [hset, Except.ok_bind, Except.ok_bind] at hrun
          have hpass := not_passedAuth_of_deniedWith hden (by simp)
          simp [AccessAsDocumented, hrun, hpolicy, hip, hnonempty, hden, hpass]

def basicAuthPath : RemapPath :=
  { remapPathDefault with rpAuthType := .basic }

theorem remapPathAnnotate_basicAuthPath (env : Env) (ns : Namespace)
    : remapPathAnnotate env ns remapPathDefault (hashSet (hashNew 127) inAuthType (str "basic"))
        =
      .ok basicAuthPath := by
  unfold remapPathAnnotate
  rw [ChainTable.entries_set_new, List.foldlM_cons]
  dsimp only
  rw [remapPathAnnotateOne.eq_auth env ns _ (by simp [authAnnotations])]
  rfl

theorem remapRun_accessAsDocumented_basicAuthRealm
    : AccessAsDocumented plainEnv (getRequest []) { basicAuthPath with rpAuthRealm := some (str "a") }
        (remapRun plainEnv (pathDb { basicAuthPath with rpAuthRealm := some (str "a") }) (getRequest [])
          0) := by
  have hhealth := healthcheckMatches_pathDb { basicAuthPath with rpAuthRealm := some (str "a") } []
    (by decide)
  rw [remapRun_accessAsDocumented_iff _ _ _ _ _ _ _ _ (selects_pathDb _ _) (by simp [hhealth])
    (rrCheckTls_pathDb _ _ _ rfl)]
  refine ⟨by simp [pathDb, str], by simp, ?_⟩
  rintro ⟨-, -, -, query, hquery, -⟩
  cases hquery

-- Without a realm the challenge takes the length of a null pointer.
theorem not_remapRun_accessAsDocumented
    : ¬ ∀ (env : Env) (db : RemapDb) (req : RemapRequest) (rnd : Nat) (host : Str) (rh : RemapHost)
        (rp : RemapPath) (pfxsz : Nat),
        Selects env db req host rh rp pfxsz →
        healthcheckMatches db req ≠ .ok true →
        (rrCheckTls req host rh rp (.selected rh rp)).1 ≠ .synthetic →
        AccessAsDocumented env req rp (remapRun env db req rnd) := by
  intro h
  have hhealth := healthcheckMatches_pathDb basicAuthPath [] (by decide)
  have hsel := selects_pathDb basicAuthPath []
  have htls := rrCheckTls_pathDb basicAuthPath [] (.selected (pathHost basicAuthPath) basicAuthPath) rfl
  have hdoc := h plainEnv (pathDb basicAuthPath) (getRequest []) 0 _ _ _ _ hsel (by simp [hhealth]) htls
  rw [remapRun.eq_of_selects 0 hsel hhealth htls] at hdoc
  exact not_accessAsDocumented_error _ hdoc
