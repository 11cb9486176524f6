import TsIngress.Remap.Impl.Run
import TsIngress.Lib.ExceptFold

/-!
This module contains what a run of `remap_run` goes through: the answers of its checks, and the ways it can
end.
-/

theorem rrCheckProto_ok_iff (req : RemapRequest) (rp : RemapPath) (res : RemapResult)
    : (rrCheckProto req rp res).1 = .ok
        ↔
      req.rrProto ∈ [str "http", str "https", str "ws", str "wss"] := by
  unfold rrCheckProto
  split
  . next h => rcases h with h | h <;> simp [h]
  . next h1 =>
    split
    . next h2 => rcases h2 with h2 | h2 <;> simp [h2]
    . next h2 =>
      simp only [not_or] at h1 h2
      simp [h1, h2]

theorem rrCheckProto_cases (req : RemapRequest) (rp : RemapPath) (res : RemapResult)
    : (∃ proto, rrCheckProto req rp res = (.ok, { res with rzProto := some proto }))
        ∨
      rrCheckProto req rp res = (.errInvalidProtocol, res) := by
  unfold rrCheckProto
  split
  . exact .inl ⟨_, rfl⟩
  . split
    . exact .inl ⟨_, rfl⟩
    . exact .inr rfl

theorem rrCheckTls_cases (req : RemapRequest) (host : Str) (rh : RemapHost) (rp : RemapPath)
    (res : RemapResult)
    : rrCheckTls req host rh rp res = (.ok, res)
        ∨
      rrCheckTls req host rh rp res = (.synthetic, res.redirect (tlsLocation req host)) := by
  unfold rrCheckTls
  repeat' split
  all_goals simp

theorem setHeaderIf_eq (res : RemapResult) (name : String) (value : Option Str)
    : ∃ headers, setHeaderIf res name value = { res with rzHeaders := headers } := by
  cases value with
  | none => exact ⟨_, rfl⟩
  | some value => exact ⟨_, rfl⟩

def RemapResult.noContent (res : RemapResult) (headers : Hash Str) : RemapResult :=
  { res with
    rzHeaders := headers
    rzStatus := 204
    rzStatusText := some (str "No content") }

theorem rrCheckCors_cases (req : RemapRequest) (rp : RemapPath) (res : RemapResult)
    : (∃ headers, rrCheckCors req rp res = (.ok, { res with rzHeaders := headers }))
        ∨
      ∃ headers, rrCheckCors req rp res = (.synthetic, res.noContent headers) := by
  have hpreflight : ∀ headers,
      (∃ headers', rrCheckCors.preflight req rp { res with rzHeaders := headers }
        = (.ok, { res with rzHeaders := headers' }))
        ∨
      ∃ headers', rrCheckCors.preflight req rp { res with rzHeaders := headers }
        = (.synthetic, res.noContent headers') := by
    intro headers
    unfold rrCheckCors.preflight
    split
    . exact .inl ⟨_, rfl⟩
    . right
      dsimp only
      rcases setHeaderIf_eq { res with rzHeaders := headers } "Access-Control-Allow-Methods" rp.rpCorsMethods
        with ⟨headers', h⟩
      rw [h]
      rcases setHeaderIf_eq { res with rzHeaders := headers' } "Access-Control-Allow-Headers" rp.rpCorsHeaders
        with ⟨headers', h⟩
      rw [h]
      rcases setHeaderIf_eq { res with rzHeaders := headers' } "Access-Control-Max-Age"
        (if rp.rpCorsMaxAge ≠ 0 then some (snprintf 32 (formatInt rp.rpCorsMaxAge)) else none)
        with ⟨headers', h⟩
      rw [h]
      rcases setHeaderIf_eq { res with rzHeaders := headers' } "Access-Control-Allow-Credentials"
        (if rp.rpCorsCreds then some (str "true") else none)
        with ⟨headers', h⟩
      rw [h]
      exact ⟨headers', rfl⟩
  unfold rrCheckCors
  repeat' split
  all_goals first | exact .inl ⟨_, rfl⟩ | exact hpreflight _

theorem rrCheckAppRoot_cases (req : RemapRequest) (rp : RemapPath) (res : RemapResult)
    : rrCheckAppRoot req rp res = (.ok, res)
        ∨
      ∃ root, rrCheckAppRoot req rp res = (.synthetic, res.redirect root) := by
  unfold rrCheckAppRoot
  split
  . exact .inr ⟨_, rfl⟩
  . exact .inl rfl

theorem rrCheckAuth_cases {env : Env} {req : RemapRequest} {rp : RemapPath} {res res' : RemapResult}
    {code : RR} (h : rrCheckAuth env req rp res = .ok (code, res'))
    : (code = .ok ∧ res' = res)
        ∨
      (code = .errForbidden ∨ code = .errUnauthorized) ∧ ∃ headers, res' = { res with rzHeaders := headers } := by
  have hchallenge : ∀ {code : RR},
      (setWwwauthHeader rp res >>= fun res => (.ok (.errUnauthorized, res) : Result (RR × RemapResult)))
        = .ok (code, res') →
      code = .errUnauthorized ∧ ∃ headers, res' = { res with rzHeaders := headers } := by
    intro code h
    unfold setWwwauthHeader at h
    simp only [Except.bind_eq_ok_iff] at h
    rcases h with ⟨_, ⟨realm, -, h'⟩, h⟩
    cases h'
    cases h
    exact ⟨rfl, _, rfl⟩
  unfold rrCheckAuth at h
  dsimp only at h
  repeat' split at h
  all_goals first
    | exact .inr ⟨.inr (hchallenge h).1, (hchallenge h).2⟩
    | cases h; exact .inl ⟨rfl, rfl⟩
    | cases h; exact .inr ⟨.inl rfl, _, rfl⟩

namespace remapRunAuthorized

inductive Outcome (env : Env) (req : RemapRequest) (rp : RemapPath) (pfxsz rnd : Nat) (res : RemapResult)
    : RR × RemapResult → Prop where
  | cors {headers : Hash Str}
      : Outcome env req rp pfxsz rnd res (.synthetic, res.noContent headers)
  | appRoot {headers : Hash Str} {root : Str}
      : Outcome env req rp pfxsz rnd res
          (.synthetic, ({ res with rzHeaders := headers } : RemapResult).redirect root)
  | invalidProtocol {headers : Hash Str} {query : Option Str}
      : Outcome env req rp pfxsz rnd res (.errInvalidProtocol,
          { res with
            rzHeaders := headers
            rzUrlpath := rewrittenPath rp req.rrPath pfxsz
            rzQuery := query })
  | noBackend {headers : Hash Str} {query : Option Str} {proto : Str}
      : Outcome env req rp pfxsz rnd res (.errNoBackend,
          { res with
            rzHeaders := headers
            rzUrlpath := rewrittenPath rp req.rrPath pfxsz
            rzQuery := query
            rzProto := some proto })
  | picked {headers : Hash Str} {query : Option Str} {proto : Str}
      (hproto : req.rrProto ∈ [str "http", str "https", str "ws", str "wss"])
      (haddrs : rp.rpAddrs.length ≠ 0)
      : Outcome env req rp pfxsz rnd res (.ok,
          { res with
            rzHeaders := headers
            rzUrlpath := rewrittenPath rp req.rrPath pfxsz
            rzQuery := query
            rzProto := some proto
            rzTarget := remapPathPickTarget env rp rnd })

theorem outcome {env : Env} {req : RemapRequest} {rp : RemapPath} {pfxsz rnd : Nat} {res : RemapResult}
    {r : RR × RemapResult} (h : remapRunAuthorized env req rp pfxsz rnd res = .ok r)
    : Outcome env req rp pfxsz rnd res r := by
  unfold remapRunAuthorized at h
  rcases rrCheckCors_cases req rp res with ⟨headers, hcors⟩ | ⟨headers, hcors⟩
  . rw [hcors] at h
    dsimp only at h
    rcases rrCheckAppRoot_cases req rp { res with rzHeaders := headers } with hroot | ⟨root, hroot⟩
    . rw [hroot] at h
      dsimp only at h
      rw [Except.bind_eq_ok_iff] at h
      rcases h with ⟨query, -, h⟩
      generalize hres : ({ res with
        rzHeaders := headers
        rzUrlpath := rewrittenPath rp req.rrPath pfxsz
        rzQuery := query } : RemapResult) = res' at h
      have hok := rrCheckProto_ok_iff req rp res'
      rcases rrCheckProto_cases req rp res' with ⟨proto, hproto⟩ | hproto
      . rw [hproto] at h hok
        dsimp only at h hok
        split at h
        . cases h
          rw [← hres]
          exact .noBackend
        . next haddrs =>
          cases h
          rw [← hres]
          exact .picked (hok.mp rfl) haddrs
      . rw [hproto] at h
        cases h
        rw [← hres]
        exact .invalidProtocol
    . rw [hroot] at h
      cases h
      exact .appRoot
  . rw [hcors] at h
    cases h
    exact .cors

end remapRunAuthorized

def SameAnswer (r r' : RR × RemapResult) : Prop :=
  r.1 = r'.1 ∧ r.2.rzPath = r'.2.rzPath

theorem SameAnswer.refl (r : RR × RemapResult) : SameAnswer r r := by
  exact ⟨rfl, rfl⟩

namespace remapRunAuthorized

theorem sameAnswer (env : Env) (req : RemapRequest) (rp : RemapPath) (pfxsz rnd rnd' : Nat)
    (res : RemapResult)
    : Except.Related SameAnswer (remapRunAuthorized env req rp pfxsz rnd res)
        (remapRunAuthorized env req rp pfxsz rnd' res) := by
  unfold remapRunAuthorized
  split
  . split
    . apply Except.Related.bind (Except.Related.refl _)
      rintro query _ rfl
      dsimp only
      split
      . split
        . exact .ok (.refl _)
        . exact .ok ⟨rfl, rfl⟩
      . exact .ok (.refl _)
    . exact .ok (.refl _)
  . exact .ok (.refl _)

theorem proto_of_ok {env : Env} {req : RemapRequest} {rp : RemapPath} {pfxsz rnd : Nat}
    {res res' : RemapResult} (h : remapRunAuthorized env req rp pfxsz rnd res = .ok (.ok, res'))
    : req.rrProto ∈ [str "http", str "https", str "ws", str "wss"] := by
  cases outcome h with
  | picked hproto haddrs => exact hproto

end remapRunAuthorized

def RemapResult.selected (rh : RemapHost) (rp : RemapPath) : RemapResult :=
  { rzHost := some rh, rzPath := some rp }

def Selects (env : Env) (db : RemapDb) (req : RemapRequest) (host : Str) (rh : RemapHost)
    (rp : RemapPath) (pfxsz : Nat) : Prop :=
  req.rrHost = some host
    ∧
  host ≠ []
    ∧
  remapDbGetHost db host = some rh
    ∧
  remapHostFindPath env rh req.rrPath = (some rp, pfxsz)

theorem Selects.unique {env : Env} {db : RemapDb} {req : RemapRequest} {host host' : Str}
    {rh rh' : RemapHost} {rp rp' : RemapPath} {pfxsz pfxsz' : Nat}
    (h : Selects env db req host rh rp pfxsz) (h' : Selects env db req host' rh' rp' pfxsz')
    : host = host' ∧ rh = rh' ∧ rp = rp' ∧ pfxsz = pfxsz' := by
  rcases h with ⟨hhost, -, hget, hfind⟩
  rcases h' with ⟨hhost', -, hget', hfind'⟩
  rw [hhost, Option.some.injEq] at hhost'
  subst hhost'
  rw [hget, Option.some.injEq] at hget'
  subst hget'
  rw [hfind, Prod.mk.injEq, Option.some.injEq] at hfind'
  exact ⟨rfl, rfl, hfind'.1, hfind'.2⟩

theorem remapHostFindPath_isSome (env : Env) (rh : RemapHost) (path : Option Str)
    : ∃ rp pfxsz, remapHostFindPath env rh path = (some rp, pfxsz) := by
  have hhead := List.head?_eq_some_head rh.rhPaths_ne_nil
  have hgo : ∀ path paths, ∃ rp pfxsz, remapHostFindPath.go env rh path paths = (some rp, pfxsz) := by
    intro path paths
    induction paths with
    | nil => exact ⟨_, 0, by rw [remapHostFindPath.go, hhead]⟩
    | cons p paths ih =>
      unfold remapHostFindPath.go
      split
      . exact ⟨_, _, rfl⟩
      . exact ih
  cases path with
  | none => exact ⟨_, 0, by rw [remapHostFindPath, hhead]⟩
  | some path => exact hgo path _

namespace remapRun

theorem eq_of_selects {env : Env} {db : RemapDb} {req : RemapRequest} {host : Str}
    {rh : RemapHost} {rp : RemapPath} {pfxsz : Nat} (rnd : Nat)
    (hsel : Selects env db req host rh rp pfxsz) (hhealth : healthcheckMatches db req = .ok false)
    (htls : (rrCheckTls req host rh rp (.selected rh rp)).1 ≠ .synthetic)
    : remapRun env db req rnd
        =
      (rrCheckAuth env req rp (.selected rh rp) >>= fun
        | (.ok, res) => remapRunAuthorized env req rp pfxsz rnd res
        | (r, res) => .ok (r, res)) := by
  rcases hsel with ⟨hhost, hne, hget, hfind⟩
  have hok : rrCheckTls req host rh rp (.selected rh rp) = (.ok, .selected rh rp) := by
    rcases rrCheckTls_cases req host rh rp (.selected rh rp) with h | h
    . exact h
    . rw [h] at htls
      exact absurd rfl htls
  unfold remapRun
  rw [hhealth, Except.ok_bind]
  simp only [hhost, hne, hget, hfind]
  unfold RemapResult.selected at hok ⊢
  rw [hok]
  rfl

inductive Outcome (env : Env) (db : RemapDb) (req : RemapRequest) (rnd : Nat)
    : RR × RemapResult → Prop where
  | healthcheck (hhealth : healthcheckMatches db req = .ok true)
      : Outcome env db req rnd (.synthetic, { rzStatus := 200, rzStatusText := some (str "OK") })
  | invalidHost (hhealth : healthcheckMatches db req = .ok false)
      : Outcome env db req rnd (.errInvalidHost, {})
  | noHost (hhealth : healthcheckMatches db req = .ok false)
      : Outcome env db req rnd (.errNoHost, {})
  | tls {host : Str} {rh : RemapHost} {rp : RemapPath} {pfxsz : Nat}
      (hhealth : healthcheckMatches db req = .ok false) (hsel : Selects env db req host rh rp pfxsz)
      : Outcome env db req rnd
          (.synthetic, (RemapResult.selected rh rp).redirect (tlsLocation req host))
  | denied {host : Str} {rh : RemapHost} {rp : RemapPath} {pfxsz : Nat} {code : RR} {headers : Hash Str}
      (hhealth : healthcheckMatches db req = .ok false) (hsel : Selects env db req host rh rp pfxsz)
      (hcode : code = .errForbidden ∨ code = .errUnauthorized)
      : Outcome env db req rnd (code, { RemapResult.selected rh rp with rzHeaders := headers })
  | authorized {host : Str} {rh : RemapHost} {rp : RemapPath} {pfxsz : Nat} {r : RR × RemapResult}
      (hhealth : healthcheckMatches db req = .ok false) (hsel : Selects env db req host rh rp pfxsz)
      (hrun : remapRunAuthorized env req rp pfxsz rnd (.selected rh rp) = .ok r)
      : Outcome env db req rnd r

theorem outcome {env : Env} {db : RemapDb} {req : RemapRequest} {rnd : Nat} {r : RR × RemapResult}
    (h : remapRun env db req rnd = .ok r)
    : Outcome env db req rnd r := by
  unfold remapRun at h
  rw [Except.bind_eq_ok_iff] at h
  rcases h with ⟨answered, hhealth, h⟩
  split at h
  . next hanswered =>
    cases h
    rw [hanswered] at hhealth
    exact .healthcheck hhealth
  . next hanswered =>
    rw [Bool.not_eq_true] at hanswered
    rw [hanswered] at hhealth
    split at h
    . cases h
      exact .invalidHost hhealth
    . next host hhost =>
      split at h
      . cases h
        exact .invalidHost hhealth
      . next hne =>
        split at h
        . cases h
          exact .noHost hhealth
        . next rh hget =>
          rcases remapHostFindPath_isSome env rh req.rrPath with ⟨rp, pfxsz, hfind⟩
          have hsel : Selects env db req host rh rp pfxsz := ⟨hhost, hne, hget, hfind⟩
          rw [hfind] at h
          dsimp only at h
          rcases rrCheckTls_cases req host rh rp (.selected rh rp) with htls | htls
          . rw [← RemapResult.selected, htls] at h
            dsimp only at h
            rw [Except.bind_eq_ok_iff] at h
            rcases h with ⟨⟨code, res⟩, hauth, h⟩
            rcases rrCheckAuth_cases hauth with ⟨rfl, rfl⟩ | ⟨hcode, headers, rfl⟩
            . exact .authorized hhealth hsel h
            . rcases hcode with rfl | rfl
              . cases h
                exact .denied hhealth hsel (.inl rfl)
              . cases h
                exact .denied hhealth hsel (.inr rfl)
          . rw [← RemapResult.selected, htls] at h
            cases h
            exact .tls hhealth hsel

theorem inv_of_ok {env : Env} {db : RemapDb} {req : RemapRequest} {rnd : Nat} {res : RemapResult}
    (h : remapRun env db req rnd = .ok (.ok, res))
    : ∃ host rh rp pfxsz,
        Selects env db req host rh rp pfxsz
          ∧
        remapRunAuthorized env req rp pfxsz rnd (.selected rh rp) = .ok (.ok, res) := by
  cases outcome h with
  | denied hhealth hsel hcode => simp at hcode
  | authorized hhealth hsel hrun => exact ⟨_, _, _, _, hsel, hrun⟩

theorem congr {env : Env} {db db' : RemapDb} {req : RemapRequest}
    (hhealth : db.rdHealthcheck = db'.rdHealthcheck)
    (hhost : ∀ host, req.rrHost = some host → remapDbGetHost db host = remapDbGetHost db' host) (rnd : Nat)
    : remapRun env db req rnd = remapRun env db' req rnd := by
  unfold remapRun healthcheckMatches
  rw [hhealth]
  cases hreq : req.rrHost with
  | none => rfl
  | some host => simp only [hhost host hreq]

theorem sameAnswer (env : Env) (db : RemapDb) (req : RemapRequest) (rnd rnd' : Nat)
    : Except.Related SameAnswer (remapRun env db req rnd) (remapRun env db req rnd') := by
  unfold remapRun
  apply Except.Related.bind (Except.Related.refl _)
  rintro answered _ rfl
  split
  . exact .ok (.refl _)
  split
  . exact .ok (.refl _)
  split
  . exact .ok (.refl _)
  split
  . exact .ok (.refl _)
  split
  . exact .ok (.refl _)
  split
  . apply Except.Related.bind (Except.Related.refl _)
    rintro ⟨r, res⟩ _ rfl
    split
    . apply remapRunAuthorized.sameAnswer
    . exact .ok (.refl _)
  . exact .ok (.refl _)

end remapRun

def pathHost (rp : RemapPath) : RemapHost :=
  { remapHostNew with
    rhPaths := [rp]
    rhPaths_ne_nil := by simp }

def pathDb (rp : RemapPath) : RemapDb where
  rdConfig := ⟨hashNew 11, none, none⟩
  rdHealthcheck := some (str "/__trafficserver_alive")
  rdHosts := hashSet (hashNew 4093) (str "foo.com") (pathHost rp)

def getRequest (path : Str) : RemapRequest where
  rrProto := str "http"
  rrMethod := str "GET"
  rrHost := some (str "foo.com")
  rrPath := some path
  rrQuery := none
  rrHdrfields := hashNew 127
  rrAddr := .other

theorem selects_pathDb (rp : RemapPath) (path : Str)
    : Selects plainEnv (pathDb rp) (getRequest path) (str "foo.com") (pathHost rp) rp 0 := by
  refine ⟨rfl, by decide, ?_, rfl⟩
  simp [remapDbGetHost, pathDb]

theorem healthcheckMatches_pathDb (rp : RemapPath) (path : Str)
    (hpath : path ≠ str "__trafficserver_alive")
    : healthcheckMatches (pathDb rp) (getRequest path) = .ok false := by
  simpa [healthcheckMatches, pathDb, getRequest, str] using hpath

theorem rrCheckTls_pathDb (rp : RemapPath) (path : Str) (res : RemapResult)
    (hforce : rp.rpForceSslRedirect = false)
    : (rrCheckTls (getRequest path) (str "foo.com") (pathHost rp) rp res).1 ≠ .synthetic := by
  simp [rrCheckTls, pathHost, remapHostNew, hforce]
