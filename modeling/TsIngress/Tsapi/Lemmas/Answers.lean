import TsIngress.Tsapi.Lemmas.Intercept
import TsIngress.Tsapi.Lemmas.Response

/-!
This module contains the answers that the plugin gives by itself, from the decision of `remap_run` to the bytes and
the header fields that the client gets.
-/

theorem textPlain_clean : ∀ c ∈ str "Content-Type" ++ str "text/plain;charset=UTF-8", c ≠ 0 ∧ c ≠ 13 ∧ c ≠ 10 := by
  decide +kernel

def textPlain : HeaderField where
  name := str "Content-Type"
  value := str "text/plain;charset=UTF-8"
  clean := textPlain_clean

def textReply (status : Int) (reason body : Str) (text : 0 ∉ reason ∧ 0 ∉ body) : Reply where
  status := status
  reason := reason
  headers := [textPlain]
  body := some body
  reason_text := text.1
  body_text := by
    intro body' hbody'
    cases hbody'
    exact text.2

theorem moved_text : 0 ∉ str "Moved" ∧ 0 ∉ str "This document has moved.\n" := by
  decide +kernel

theorem badRequest_text : 0 ∉ str "Bad request" ∧ 0 ∉ str "The server could not undestand this request.\r\n" := by
  decide +kernel

theorem unavailable_text
    : 0 ∉ str "Service unavailable" ∧ 0 ∉ str "No backend is available to service this request.\r\n" := by
  decide +kernel

theorem forbidden_text : 0 ∉ str "Forbidden" ∧ 0 ∉ str "Access denied.\r\n" := by
  decide +kernel

theorem unauthorized_text : 0 ∉ str "Unauthorized" ∧ 0 ∉ str "Unauthorized.\r\n" := by
  decide +kernel

def answerOf : RR → Option Reply
  | .synthetic => some (textReply 301 (str "Moved") (str "This document has moved.\n") moved_text)
  | .errInvalidHost | .errInvalidProtocol =>
    some (textReply 400 (str "Bad request") (str "The server could not undestand this request.\r\n") badRequest_text)
  | .errNoBackend =>
    some (textReply 503 (str "Service unavailable") (str "No backend is available to service this request.\r\n")
      unavailable_text)
  | .errForbidden => some (textReply 403 (str "Forbidden") (str "Access denied.\r\n") forbidden_text)
  | .errUnauthorized => some (textReply 401 (str "Unauthorized") (str "Unauthorized.\r\n") unauthorized_text)
  | .errNoHost | .errNoPath => none
  | .ok => none

theorem length_answerOf (ret : RR)
    : ∀ reply ∈ answerOf ret, reply.body ≠ none ∧ reply.response.length ≤ syBufsz - 1 := by
  cases ret with
  | errNoHost => simp [answerOf]
  | errNoPath => simp [answerOf]
  | ok => simp [answerOf]
  | _ =>
    intro reply hreply
    cases hreply
    refine ⟨by simp [textReply], ?_⟩
    decide +kernel

theorem rzBody_of_synthetic {env : Env} {db : RemapDb} {req : RemapRequest} {rnd : Nat} {res : RemapResult}
    (h : remapRun env db req rnd = .ok (.synthetic, res))
    : res.rzBody = none
        ∨
      ∃ (res' : RemapResult) (location : Str), res = res'.redirect location := by
  cases remapRun.outcome h with
  | healthcheck => exact .inl rfl
  | tls => exact .inr ⟨_, _, rfl⟩
  | denied _ _ hcode => simp at hcode
  | authorized _ _ hrun =>
    cases remapRunAuthorized.outcome hrun with
    | cors => exact .inl rfl
    | appRoot => exact .inr ⟨_, _, rfl⟩

theorem remapReply_eq {env : Env} {db : RemapDb} {req : RemapRequest} {rnd : Nat} {ret : RR} {res : RemapResult}
    (h : remapRun env db req rnd = .ok (ret, res)) (hbody : ret = .synthetic → res.rzBody ≠ none)
    : remapReply ret res = (answerOf ret).map Reply.synth := by
  cases ret with
  | synthetic =>
    rcases rzBody_of_synthetic h with hnone | ⟨res', location, rfl⟩
    . exact absurd hnone (hbody rfl)
    . rfl
  | _ => rfl

theorem SynthConn.delivers {reply : Reply} (hbody : reply.body ≠ none) (hfits : reply.response.length ≤ syBufsz - 1)
    {c : SynthConn} (h : SynthConn.Reachable reply.synth c)
    : c.received <+: reply.response
        ∧
      (∀ event, c.Sends event → Except.Returns (synthHandle c event))
        ∧
      (c.Sends .writeComplete → c.received = reply.response)
        ∧
      (c.destroyed = false → ∃ c', Relation.ReflTransGen SynthConn.Step c c' ∧ c'.Sends .writeComplete) := by
  have hanswers := SynthConn.Answers.of_reachable h
  obtain ⟨text, htext⟩ := Option.ne_none_iff_exists'.mp hbody
  have hsent := ((reply.wellFormed_iff_of_body htext).mpr hfits).whole hfits
  refine ⟨?_, ?_, ?_, ?_⟩
  . rw [← hsent]
    exact hanswers.received_isPrefix
  . intro event hsends
    rcases hanswers.handle hsends with ⟨c', hc', -⟩
    exact ⟨c', hc'⟩
  . intro hcomplete
    rw [← hsent]
    exact hanswers.received_of_complete hcomplete
  . intro hlive
    rcases hanswers.exists_complete hlive with ⟨c', hrun, -, hcomplete⟩
    exact ⟨c', hrun, hcomplete⟩

/--
However Traffic Server goes about it, the client of a request that the plugin answers itself gets the one response of
this answer: never anything else, all of it when the write is complete, and the write can always be completed. The
answers without a body are left out.
-/
theorem handleRequest_answer_delivered (env : Env) (state : State) (rnd : Nat) (data : Option (List UInt8))
    (client : ClientReq) (txn : Txn) (h : handleRequest env state rnd data (startTxn client) = .ok txn)
    (conn : SynthConn) (hconn : txn.intercept = some conn) (c : SynthConn)
    (hrun : Relation.ReflTransGen SynthConn.Step conn c)
    : ∃ db ret res, state.db = some db ∧ remapRun env db (requestFromTxn client) rnd = .ok (ret, res)
        ∧
      ((ret = .synthetic ∧ res.rzBody = none)
        ∨
      ∃ reply, answerOf ret = some reply
        ∧ c.received <+: reply.response
        ∧ (∀ event, c.Sends event → Except.Returns (synthHandle c event))
        ∧ (c.Sends .writeComplete → c.received = reply.response)
        ∧ (c.destroyed = false → ∃ c', Relation.ReflTransGen SynthConn.Step c c' ∧ c'.Sends .writeComplete)) := by
  unfold handleRequest at h
  rw [Except.bind_eq_ok_iff] at h
  rcases h with ⟨txn', hremap, h⟩
  cases handled_of_handleRemap hremap with
  | unready hdb =>
    cases h
    cases hconn
  | @answered db ret res hdb hremapRun hret =>
    cases h
    refine ⟨db, ret, res, hdb, hremapRun, ?_⟩
    by_cases hnone : ret = .synthetic ∧ res.rzBody = none
    . exact .inl hnone
    . right
      have hreply := remapReply_eq hremapRun fun hsynthetic hbody => hnone ⟨hsynthetic, hbody⟩
      dsimp only [Txn.reenable] at hconn
      rw [hreply] at hconn
      cases hanswer : answerOf ret with
      | none =>
        rw [hanswer] at hconn
        cases hconn
      | some reply =>
        rw [hanswer] at hconn
        cases hconn
        rcases length_answerOf ret reply hanswer with ⟨hbody, hfits⟩
        exact ⟨reply, rfl, SynthConn.delivers hbody hfits hrun⟩
  | @forwarded db res rp target txn' hdb hremapRun hrp htarget hforwards =>
    have hnone : txn.intercept = none := by
      split at h
      . obtain ⟨addr, hlookup⟩ := externalLookup_eq data txn'
        rw [hlookup] at h
        cases h
        exact hforwards.intercept
      . cases h
        exact hforwards.intercept
    rw [hnone] at hconn
    cases hconn

def nameless : ClientReq :=
  { webClient with host := none }

theorem handleRequest_answer_delivered_nameless
    : ∃ txn conn, handleRequest plainEnv webState 0 none (startTxn nameless) = .ok txn ∧ txn.intercept = some conn
        ∧ ∃ c', Relation.ReflTransGen SynthConn.Step conn c' ∧ c'.Sends .writeComplete := by
  have hhandled : ∃ txn conn, handleRequest plainEnv webState 0 none (startTxn nameless) = .ok txn
      ∧ txn.intercept = some conn ∧ conn.destroyed = false := ⟨_, _, rfl, rfl, rfl⟩
  rcases hhandled with ⟨txn, conn, h, hconn, hlive⟩
  refine ⟨txn, conn, h, hconn, ?_⟩
  rcases handleRequest_answer_delivered plainEnv webState 0 none nameless txn h conn hconn conn .refl with
    ⟨db, ret, res, hdb, hrun, ⟨rfl, -⟩ | ⟨reply, -, -, -, -, hcomplete⟩⟩
  . cases hdb
    cases hrun
  . exact hcomplete hlive

theorem snprintf_of_length {size : Nat} {text : Str} (h : text.length < size) : snprintf size text = text := by
  unfold snprintf
  exact List.take_of_length_le (by omega)

theorem authRealm_of_unauthorized {env : Env} {req : RemapRequest} {rp : RemapPath} {res res' : RemapResult}
    (h : rrCheckAuth env req rp res = .ok (.errUnauthorized, res'))
    : ∃ realm, rp.rpAuthRealm = some realm
        ∧ hashGet res'.rzHeaders (str "WWW-Authenticate") = some (str "Basic realm=\"" ++ realm ++ str "\"") := by
  by_cases hpolicy : AuthPolicy env req rp
  . rw [rrCheckAuth.of_policy res hpolicy] at h
    cases h
  . by_cases hip : AddressRefused env req rp
    . rw [rrCheckAuth.of_addressRefused res hip] at h
      cases h
    . rw [rrCheckAuth.of_challenged res ((challenged_iff env req rp).mpr ⟨hpolicy, hip⟩), Except.bind_eq_ok_iff] at h
      rcases h with ⟨res1, hset, h⟩
      cases h
      unfold setWwwauthHeader at hset
      simp only [Except.bind_eq_ok_iff, deref_eq_ok_iff] at hset
      rcases hset with ⟨realm, hrealm, hset⟩
      cases hset
      refine ⟨realm, hrealm, ?_⟩
      have hlength : (str "Basic realm=\"" ++ realm ++ str "\"").length
          < (str "Basic realm=\"\"").length + 1 + realm.length := by
        have hquote : (str "Basic realm=\"\"").length = (str "Basic realm=\"").length + (str "\"").length := by
          decide
        simp only [List.length_append]
        omega
      dsimp only [setHeader, hashGet, hashSet]
      rw [ChainTable.get_set_self, snprintf_of_length hlength]

theorem rrCheckAppRoot_root (req : RemapRequest) (rp : RemapPath) (res : RemapResult)
    : rrCheckAppRoot req rp res = (.ok, res)
        ∨
      ∃ root, rp.rpAppRoot = some root ∧ rrCheckAppRoot req rp res = (.synthetic, res.redirect root) := by
  unfold rrCheckAppRoot
  split
  . next root happ _ => exact .inr ⟨root, happ, rfl⟩
  . exact .inl rfl

theorem location_of_appRoot {env : Env} {req : RemapRequest} {rp : RemapPath} {pfxsz rnd : Nat} {res res' : RemapResult}
    (hbody : res.rzBody = none) (h : remapRunAuthorized env req rp pfxsz rnd res = .ok (.synthetic, res'))
    (hbody' : res'.rzBody ≠ none)
    : ∃ root, rp.rpAppRoot = some root ∧ hashGet res'.rzHeaders (str "Location") = some root := by
  unfold remapRunAuthorized at h
  rcases rrCheckCors_cases req rp res with ⟨headers, hcors⟩ | ⟨headers, hcors⟩
  . rw [hcors] at h
    dsimp only at h
    rcases rrCheckAppRoot_root req rp { res with rzHeaders := headers } with hroot | ⟨root, happ, hroot⟩
    . rw [hroot] at h
      dsimp only at h
      rw [Except.bind_eq_ok_iff] at h
      rcases h with ⟨query, -, h⟩
      split at h
      . split at h
        . cases h
        . cases h
      . next hproto =>
        cases h
        rcases rrCheckProto_cases req rp _ with ⟨proto, hcase⟩ | hcase
        . rw [hcase] at hproto
          cases hproto
        . rw [hcase] at hproto
          cases hproto
    . rw [hroot] at h
      cases h
      exact ⟨root, happ, ChainTable.get_set_self _ _ _⟩
  . rw [hcors] at h
    cases h
    exact absurd hbody hbody'

theorem location_of_synthetic {env : Env} {db : RemapDb} {req : RemapRequest} {rnd : Nat} {res : RemapResult}
    (h : remapRun env db req rnd = .ok (.synthetic, res)) (hbody : res.rzBody ≠ none)
    : ∃ host rh rp pfxsz location, Selects env db req host rh rp pfxsz
        ∧ (location = tlsLocation req host ∨ rp.rpAppRoot = some location)
        ∧ hashGet res.rzHeaders (str "Location") = some location := by
  cases remapRun.outcome h with
  | healthcheck => exact absurd rfl hbody
  | @tls host rh rp pfxsz hhealth hsel =>
    exact ⟨host, rh, rp, pfxsz, _, hsel, .inl rfl, ChainTable.get_set_self _ _ _⟩
  | denied _ _ hcode => simp at hcode
  | @authorized host rh rp pfxsz r hhealth hsel hrun =>
    rcases location_of_appRoot rfl hrun hbody with ⟨root, happ, hlocation⟩
    exact ⟨host, rh, rp, pfxsz, root, hsel, .inr happ, hlocation⟩

theorem mem_clientResp {henv : HookEnv} {rctx : TxnCtx} {events : List TxnEvent} {resp : MimeHdr} {st : HookState}
    (h : tsiHooks henv rctx (events ++ [.sendResponseHdr resp]) = .ok st) {name value : Str}
    (hget : hashGet rctx.rqResponseHeaders name = some value)
    (hname : (⟨name, [value]⟩ : MimeField).unhooked = true)
    : ⟨name, [value]⟩ ∈ st.comp.clientResp := by
  have hsent : ⟨name, [value]⟩ ∈ (sentHdr rctx resp).filter MimeField.unhooked := by
    rw [List.mem_filter]
    refine ⟨?_, hname⟩
    unfold sentHdr headerFields
    rw [List.mem_append, List.mem_map]
    exact .inr ⟨(name, value), ChainTable.mem_entries_of_get _ _ _ hget, rfl⟩
  rw [← filter_unhooked_clientResp h] at hsent
  exact List.mem_of_mem_filter hsent

/--
Whatever the hooks of the transaction go through, a client that is turned away for want of credentials is told the
realm, and one that is redirected is told where to.
-/
theorem handleRequest_answer_fields (env : Env) (state : State) (rnd : Nat) (data : Option (List UInt8))
    (client : ClientReq) (txn : Txn) (h : handleRequest env state rnd data (startTxn client) = .ok txn)
    (rctx : TxnCtx) (hrctx : txn.hooks = some rctx) (henv : HookEnv) (events : List TxnEvent) (resp : MimeHdr)
    (st : HookState) (hst : tsiHooks henv rctx (events ++ [.sendResponseHdr resp]) = .ok st)
    : ∃ db ret res, state.db = some db ∧ remapRun env db (requestFromTxn client) rnd = .ok (ret, res)
        ∧
      (ret = .errUnauthorized →
        ∃ host rh rp pfxsz realm, Selects env db (requestFromTxn client) host rh rp pfxsz
          ∧ rp.rpAuthRealm = some realm
          ∧ ⟨str "WWW-Authenticate", [str "Basic realm=\"" ++ realm ++ str "\""]⟩ ∈ st.comp.clientResp)
        ∧
      (ret = .synthetic → res.rzBody ≠ none →
        ∃ host rh rp pfxsz location, Selects env db (requestFromTxn client) host rh rp pfxsz
          ∧ (location = tlsLocation (requestFromTxn client) host ∨ rp.rpAppRoot = some location)
          ∧ ⟨str "Location", [location]⟩ ∈ st.comp.clientResp) := by
  unfold handleRequest at h
  rw [Except.bind_eq_ok_iff] at h
  rcases h with ⟨txn', hremap, h⟩
  cases handled_of_handleRemap hremap with
  | unready hdb =>
    cases h
    cases hrctx
  | @answered db ret res hdb hrun hret =>
    cases h
    cases hrctx
    refine ⟨db, ret, res, hdb, hrun, ?_, ?_⟩
    . rintro rfl
      rcases remapRun.checkAuth_of_unauthorized hrun with ⟨host, rh, rp, pfxsz, hsel, hauth⟩
      rcases authRealm_of_unauthorized hauth with ⟨realm, hrealm, hget⟩
      exact ⟨host, rh, rp, pfxsz, realm, hsel, hrealm, mem_clientResp hst hget rfl⟩
    . rintro rfl hbody
      rcases location_of_synthetic hrun hbody with ⟨host, rh, rp, pfxsz, location, hsel, hplace, hget⟩
      exact ⟨host, rh, rp, pfxsz, location, hsel, hplace, mem_clientResp hst hget rfl⟩
  | @forwarded db res rp target txn' hdb hrun hrp htarget hforwards =>
    refine ⟨db, .ok, res, hdb, hrun, ?_, ?_⟩
    . intro hcode
      cases hcode
    . intro hcode
      cases hcode

def guardedPath : RemapPath :=
  { oneBackendPath with rpAuthType := .basic, rpAuthRealm := some (str "web") }

def guardedState : State :=
  ⟨k8sConfigNew, some (pathDb guardedPath)⟩

theorem remapRun_guardedPath
    : ∃ res, remapRun plainEnv (pathDb guardedPath) (requestFromTxn webClient) 0 = .ok (.errUnauthorized, res) := by
  have hreq : requestFromTxn webClient = getRequest (str "x") := by
    rfl
  rw [hreq, remapRun.eq_of_selects 0 (selects_pathDb guardedPath (str "x"))
    (healthcheckMatches_pathDb guardedPath (str "x") (by decide)) (rrCheckTls_pathDb _ _ _ rfl)]
  exact ⟨_, rfl⟩

theorem handleRequest_answer_fields_guarded
    : ∃ txn rctx st, handleRequest plainEnv guardedState 0 none (startTxn webClient) = .ok txn
        ∧ txn.hooks = some rctx
        ∧ tsiHooks edgeEnv rctx ([] ++ [.sendResponseHdr []]) = .ok st
        ∧ ⟨str "WWW-Authenticate", [str "Basic realm=\"" ++ str "web" ++ str "\""]⟩ ∈ st.comp.clientResp := by
  rcases remapRun_guardedPath with ⟨res, hrun⟩
  have hhandled : ∃ txn rctx st, handleRequest plainEnv guardedState 0 none (startTxn webClient) = .ok txn
      ∧ txn.hooks = some rctx ∧ tsiHooks edgeEnv rctx ([] ++ [.sendResponseHdr []]) = .ok st := by
    unfold handleRequest
    rw [handleRemap_eq rfl, hrun]
    exact ⟨_, _, _, rfl, rfl, rfl⟩
  rcases hhandled with ⟨txn, rctx, st, h, hrctx, hst⟩
  refine ⟨txn, rctx, st, h, hrctx, hst, ?_⟩
  rcases handleRequest_answer_fields plainEnv guardedState 0 none webClient txn h rctx hrctx edgeEnv [] [] st hst with
    ⟨db, ret, res', hdb, hrun', hchallenge, -⟩
  cases hdb
  cases hrun.symm.trans hrun'
  rcases hchallenge rfl with ⟨host, rh, rp, pfxsz, realm, hsel, hrealm, hmem⟩
  rcases hsel.unique (selects_pathDb guardedPath (str "x")) with ⟨-, -, rfl, -⟩
  cases hrealm
  exact hmem
