import TsIngress.Tsapi.Impl.Response
import TsIngress.Tsapi.Lemmas.Cookies
import TsIngress.Tsapi.Lemmas.Txn

/-!
This module contains the header that a backend gets: which fields of the client are replaced, and that the others
arrive as they were sent.
-/

theorem fieldsNamed_removeField (hdr : MimeHdr) (name : String)
    : fieldsNamed (removeField hdr name) name = (fieldsNamed hdr name).tail := by
  unfold removeField
  rcases tsMimeHdrFieldFind_cases hdr name with ⟨hfind, hnone⟩ | ⟨before, field, after, hfirst⟩
  . rw [hfind]
    dsimp only
    rw [hnone]
    rfl
  . rw [hfirst.find]
    dsimp only
    rw [hfirst.remove, hfirst.fieldsNamed_remove]

theorem filter_removeField {p : MimeField → Bool} {name : String} (hp : ∀ f : MimeField, f.named name → p f = false)
    (hdr : MimeHdr)
    : (removeField hdr name).filter p = hdr.filter p := by
  unfold removeField
  rcases tsMimeHdrFieldFind_cases hdr name with ⟨hfind, -⟩ | ⟨before, field, after, hfirst⟩
  . rw [hfind]
  . rw [hfirst.find]
    dsimp only
    rw [hfirst.remove]
    exact hfirst.filter_remove (hp field hfirst.named)

theorem fieldsNamed_replaceField (hdr : MimeHdr) (name : String) (value : Str)
    : fieldsNamed (replaceField hdr name value) name = (fieldsNamed hdr name).tail ++ [⟨str name, [value]⟩] := by
  unfold replaceField tsMimeHdrFieldAppend
  rw [fieldsNamed_append, fieldsNamed_removeField]
  simp [fieldsNamed]

theorem filter_replaceField {p : MimeField → Bool} {name : String} (hp : ∀ f : MimeField, f.named name → p f = false)
    (hdr : MimeHdr) (value : Str)
    : (replaceField hdr name value).filter p = hdr.filter p := by
  unfold replaceField tsMimeHdrFieldAppend
  rw [List.filter_append, filter_removeField hp, List.filter_cons_of_neg (by simp [hp]), List.filter_nil,
    List.append_nil]

theorem fieldsNamed_replaceField_of_ne {name other : String} (hne : (str name).map tolower ≠ (str other).map tolower)
    (hdr : MimeHdr) (value : Str)
    : fieldsNamed (replaceField hdr name value) other = fieldsNamed hdr other := by
  exact filter_replaceField (fun f hf => MimeField.named_eq_false_of_ne hf hne) hdr value

-- What `check_cookies` leaves of the Cookie fields. It only goes through the first one.
def cookiesLeft (rp : RemapPath) : MimeHdr → Result MimeHdr
  | [] => .ok []
  | field :: rest => do
    let newhdr ← field.shownCookies.foldlM (keepCookie rp) []
    return if newhdr = [] then rest else { field with values := [newhdr] } :: rest

theorem checkCookies_cases {rp : RemapPath} {hdr hdr' : MimeHdr} {canCache : Bool}
    (h : checkCookies rp hdr = .ok (canCache, hdr'))
    : (fieldsNamed hdr "Cookie" = [] ∧ canCache = true ∧ hdr' = hdr)
        ∨
      ∃ before field after newhdr, FirstField "Cookie" hdr before field after
        ∧ field.shownCookies.foldlM (keepCookie rp) [] = .ok newhdr
        ∧ ((canCache = true ∧ newhdr = [] ∧ hdr' = before ++ after)
          ∨ (canCache = false ∧ newhdr ≠ [] ∧ hdr' = before ++ { field with values := [newhdr] } :: after)) := by
  rcases tsMimeHdrFieldFind_cases hdr "Cookie" with ⟨hfind, hnone⟩ | ⟨before, field, after, hfirst⟩
  . rw [checkCookies_of_no_cookie hfind] at h
    cases h
    exact .inl ⟨hnone, rfl, rfl⟩
  . rw [hfirst.checkCookies_eq, Except.bind_eq_ok_iff] at h
    rcases h with ⟨newhdr, hnewhdr, h⟩
    refine .inr ⟨before, field, after, newhdr, hfirst, hnewhdr, ?_⟩
    split at h
    . next hne =>
      cases h
      exact .inr ⟨rfl, hne, hfirst.valuesSet [newhdr]⟩
    . next hnil =>
      cases h
      exact .inl ⟨rfl, not_not.mp hnil, rfl⟩

theorem filter_checkCookies {p : MimeField → Bool} (hp : ∀ f : MimeField, f.named "Cookie" → p f = false)
    {rp : RemapPath} {hdr hdr' : MimeHdr} {canCache : Bool} (h : checkCookies rp hdr = .ok (canCache, hdr'))
    : hdr'.filter p = hdr.filter p := by
  rcases checkCookies_cases h with ⟨-, -, rfl⟩
    | ⟨before, field, after, newhdr, hfirst, -, ⟨-, -, rfl⟩ | ⟨-, -, rfl⟩⟩
  . rfl
  . exact hfirst.filter_remove (hp field hfirst.named)
  . have hfield : p { field with values := [newhdr] } = false := hp _ hfirst.named
    rw [List.filter_append, List.filter_cons_of_neg (by simp [hfield]), ← List.filter_append]
    exact hfirst.filter_remove (hp field hfirst.named)

theorem cookiesLeft_of_checkCookies {rp : RemapPath} {hdr hdr' : MimeHdr} {canCache : Bool}
    (h : checkCookies rp hdr = .ok (canCache, hdr'))
    : cookiesLeft rp (fieldsNamed hdr "Cookie") = .ok (fieldsNamed hdr' "Cookie")
        ∧
      (canCache = true → fieldsNamed hdr' "Cookie" = (fieldsNamed hdr "Cookie").tail) := by
  rcases checkCookies_cases h with ⟨hnone, -, rfl⟩
    | ⟨before, field, after, newhdr, hfirst, hnewhdr, ⟨-, rfl, rfl⟩ | ⟨rfl, hne, rfl⟩⟩
  . rw [hnone]
    exact ⟨rfl, fun _ => rfl⟩
  . rw [hfirst.fieldsNamed_remove, hfirst.fieldsNamed_eq, cookiesLeft, hnewhdr]
    exact ⟨rfl, fun _ => rfl⟩
  . have hnamed : ({ field with values := [newhdr] } : MimeField).named "Cookie" = true := hfirst.named
    refine ⟨?_, nofun⟩
    rw [fieldsNamed_append, hfirst.first, hfirst.fieldsNamed_eq, List.nil_append, cookiesLeft, hnewhdr, Except.ok_bind,
      if_neg hne]
    unfold fieldsNamed
    rw [List.filter_cons, if_pos hnamed]
    rfl

theorem Caches.filter {req : RemapRequest} {res : RemapResult} {rp : RemapPath} {hdr : MimeHdr} {txn : Txn}
    (h : Caches req res rp hdr txn) {p : MimeField → Bool} (hp : ∀ f : MimeField, f.named "Cookie" → p f = false)
    : txn.clientReq.hdr.filter p = hdr.filter p := by
  cases h with
  | off _ hhdr => rw [hhdr]
  | cookies _ hcookies => exact filter_checkCookies hp hcookies
  | on _ hcookies => exact filter_checkCookies hp hcookies

theorem Caches.cookiesLeft {req : RemapRequest} {res : RemapResult} {rp : RemapPath} {hdr : MimeHdr} {txn : Txn}
    (h : Caches req res rp hdr txn)
    : (if rp.rpCache then cookiesLeft rp (fieldsNamed hdr "Cookie") else .ok (fieldsNamed hdr "Cookie"))
        =
      .ok (fieldsNamed txn.clientReq.hdr "Cookie") := by
  cases h with
  | off hcache hhdr => rw [hcache, hhdr, if_neg Bool.false_ne_true]
  | cookies hcache hcookies =>
    rw [hcache, if_pos rfl]
    exact (cookiesLeft_of_checkCookies hcookies).1
  | on hcache hcookies =>
    rw [hcache, if_pos rfl]
    exact (cookiesLeft_of_checkCookies hcookies).1

-- The fields that the plugin does not touch, where it may tell the protocol and compress the response.
def MimeField.untouched (xfp compress : Bool) (field : MimeField) : Bool :=
  !field.named "Host" && !field.named "Cookie" && !(xfp && field.named "X-Forwarded-Proto")
    && !(compress && field.named "Accept-Encoding")

theorem filter_forwardedHdr {p : MimeField → Bool} (hhost : ∀ f : MimeField, f.named "Host" → p f = false)
    {state : State} (hxfp : state.config.coXfp = true → ∀ f : MimeField, f.named "X-Forwarded-Proto" → p f = false)
    (client : ClientReq) (host : Str)
    : (forwardedHdr state client host).filter p = client.hdr.filter p := by
  unfold forwardedHdr setHostField addXfp
  split
  . next hco => rw [filter_replaceField (hxfp hco), filter_replaceField hhost]
  . rw [filter_replaceField hhost]

theorem fieldsNamed_cookie_forwardedHdr (state : State) (client : ClientReq) (host : Str)
    : fieldsNamed (forwardedHdr state client host) "Cookie" = fieldsNamed client.hdr "Cookie" := by
  apply filter_forwardedHdr
  . intro f hf
    exact MimeField.named_eq_false_of_ne hf (by decide)
  . intro _ f hf
    exact MimeField.named_eq_false_of_ne hf (by decide)

theorem fieldsNamed_accept_forwardedHdr (state : State) (client : ClientReq) (host : Str)
    : fieldsNamed (forwardedHdr state client host) "Accept-Encoding" = fieldsNamed client.hdr "Accept-Encoding" := by
  apply filter_forwardedHdr
  . intro f hf
    exact MimeField.named_eq_false_of_ne hf (by decide)
  . intro _ f hf
    exact MimeField.named_eq_false_of_ne hf (by decide)

theorem fieldsNamed_host_forwardedHdr (state : State) (client : ClientReq) (host : Str)
    : fieldsNamed (forwardedHdr state client host) "Host"
        =
      (fieldsNamed client.hdr "Host").tail ++ [⟨str "Host", [host]⟩] := by
  unfold forwardedHdr setHostField addXfp
  split
  . rw [fieldsNamed_replaceField_of_ne (by decide), fieldsNamed_replaceField]
  . rw [fieldsNamed_replaceField]

def forwardedProto (client : ClientReq) : Str :=
  if client.tls then str "https" else str "http"

theorem fieldsNamed_proto_forwardedHdr (state : State) (client : ClientReq) (host : Str)
    : fieldsNamed (forwardedHdr state client host) "X-Forwarded-Proto"
        =
      if state.config.coXfp then
        (fieldsNamed client.hdr "X-Forwarded-Proto").tail ++ [⟨str "X-Forwarded-Proto", [forwardedProto client]⟩]
      else
        fieldsNamed client.hdr "X-Forwarded-Proto" := by
  unfold forwardedHdr setHostField addXfp forwardedProto
  split
  . rw [fieldsNamed_replaceField, fieldsNamed_replaceField_of_ne (by decide)]
  . rw [fieldsNamed_replaceField_of_ne (by decide)]

theorem externalLookup_eq (data : Option (List UInt8)) (txn : Txn)
    : ∃ addr, externalLookup data txn = { txn with serverAddr := addr, reenabled := txn.reenabled + 1 } := by
  unfold externalLookup
  split
  . exact ⟨_, rfl⟩
  . exact ⟨_, rfl⟩

structure Backend (env : Env) (state : State) (rnd : Nat) (client : ClientReq) (txn : Txn) where
  db : RemapDb
  res : RemapResult
  rp : RemapPath
  target : RemapTarget
  host : Str
  db_eq : state.db = some db
  run : remapRun env db (requestFromTxn client) rnd = .ok (.ok, res)
  rp_eq : res.rzPath = some rp
  target_eq : res.rzTarget = some target
  host_eq : backendHost (requestFromTxn client) rp target = .ok host
  headers : txn.hooks.map (·.rqResponseHeaders) = some res.rzHeaders
  compress : txn.hooks.map (·.rqCompress) = some rp.rpCompress
  caches : Caches (requestFromTxn client) res rp (forwardedHdr state client host) txn

theorem backend_of_handleRequest {env : Env} {state : State} {rnd : Nat} {data : Option (List UInt8)}
    {client : ClientReq} {txn : Txn} (h : handleRequest env state rnd data (startTxn client) = .ok txn)
    (hbackend : txn.serverAddr.isSome ∨ txn.hostLookup.isSome)
    : Nonempty (Backend env state rnd client txn) := by
  unfold handleRequest at h
  rw [Except.bind_eq_ok_iff] at h
  rcases h with ⟨txn', hremap, h⟩
  cases handled_of_handleRemap hremap with
  | unready hdb =>
    cases h
    simp [startTxn] at hbackend
  | answered hdb hrun hret =>
    cases h
    simp [hookedTxn, Txn.reenable] at hbackend
  | @forwarded db res rp target txn' hdb hrun hrp htarget hforwards =>
    rcases hforwards.caches with ⟨host, hhost, hcaches⟩
    split at h
    . obtain ⟨addr, hlookup⟩ := externalLookup_eq data txn'
      rw [hlookup] at h
      cases h
      exact ⟨db, res, rp, target, host, hdb, hrun, hrp, htarget, hhost, hforwards.headers, hforwards.compress,
        hcaches.congr rfl rfl rfl rfl⟩
    . cases h
      exact ⟨db, res, rp, target, host, hdb, hrun, hrp, htarget, hhost, hforwards.headers, hforwards.compress, hcaches⟩

theorem compCheckResponse_rqCompress (txn : TxnState) (state : CompState) (resp : MimeHdr)
    : (compCheckResponse txn state resp).rctx.rqCompress = txn.rctx.rqCompress := by
  unfold compCheckResponse
  split
  . rfl
  . rfl

theorem tsiEvent_rqCompress {txn txn' : TxnState} {event : TxnEvent} (h : tsiEvent txn event = .ok txn')
    : txn'.rctx.rqCompress = txn.rctx.rqCompress := by
  cases event with
  | cacheLookupComplete status resp =>
    unfold tsiEvent at h
    dsimp only at h
    split at h
    . cases h
      rfl
    . cases h
      unfold compCheckCachedResponse
      split
      . rfl
      . split
        . rfl
        . apply compCheckResponse_rqCompress
  | sendRequestHdr req =>
    unfold tsiEvent at h
    dsimp only at h
    split at h
    . cases h
      rfl
    . cases h
      rfl
  | readResponseHdr resp =>
    unfold tsiEvent at h
    dsimp only at h
    split at h
    . cases h
      rfl
    . cases h
      unfold compCheckServerResponse
      split
      . rfl
      . apply compCheckResponse_rqCompress
  | sendResponseHdr resp =>
    unfold tsiEvent at h
    dsimp only at h
    split at h
    . rw [Except.bind_eq_ok_iff] at h
      rcases h with ⟨state, -, h⟩
      cases h
      rfl
    . cases h
      rfl

theorem tsiHook_rqCompress {henv : HookEnv} {st st' : HookState} {event : TxnEvent}
    (h : tsiHook henv st event = .ok st')
    : st'.comp.rctx.rqCompress = st.comp.rctx.rqCompress := by
  cases event with
  | cacheLookupComplete status resp =>
    simp only [tsiHook, Except.bind_eq_ok_iff] at h
    rcases h with ⟨comp, hcomp, h⟩
    cases h
    exact tsiEvent_rqCompress hcomp
  | sendRequestHdr req =>
    simp only [tsiHook, Except.bind_eq_ok_iff] at h
    rcases h with ⟨comp, hcomp, h⟩
    cases h
    exact tsiEvent_rqCompress hcomp
  | readResponseHdr resp =>
    simp only [tsiHook, Except.bind_eq_ok_iff] at h
    rcases h with ⟨comp, hcomp, h⟩
    cases h
    exact tsiEvent_rqCompress hcomp
  | sendResponseHdr resp =>
    simp only [tsiHook, Except.bind_eq_ok_iff] at h
    rcases h with ⟨comp, hcomp, h⟩
    cases h
    have hrctx : comp.rctx.rqCompress = st.comp.rctx.rqCompress := tsiEvent_rqCompress hcomp
    exact hrctx

theorem compRemoveAenc_eq (hdr : MimeHdr) : compRemoveAenc hdr = removeField hdr "Accept-Encoding" := by
  unfold compRemoveAenc removeField
  cases tsMimeHdrFieldFind hdr "Accept-Encoding" with
  | none => rfl
  | some aenc => rfl

theorem tsiHooks_serverReq {henv : HookEnv} {rctx : TxnCtx} {before : List TxnEvent} {hdr : MimeHdr} {st : HookState}
    (h : tsiHooks henv rctx (before ++ [.sendRequestHdr hdr]) = .ok st)
    : st.comp.serverReq = if rctx.rqCompress then removeField hdr "Accept-Encoding" else hdr := by
  unfold tsiHooks at h
  rw [List.foldlM_append, Except.bind_eq_ok_iff] at h
  rcases h with ⟨st', hst', h⟩
  have hcompress : st'.comp.rctx.rqCompress = rctx.rqCompress := by
    apply ExceptFold.foldlM_invariant (P := fun st : HookState => st.comp.rctx.rqCompress = rctx.rqCompress) _ rfl hst'
    intro st event st' _ hst hstep
    exact (tsiHook_rqCompress hstep).trans hst
  rw [List.foldlM_cons, Except.bind_eq_ok_iff] at h
  rcases h with ⟨st'', hlast, h⟩
  cases h
  simp only [tsiHook, tsiEvent, Except.bind_eq_ok_iff] at hlast
  rcases hlast with ⟨comp, hcomp, hlast⟩
  cases hlast
  rw [hcompress] at hcomp
  split at hcomp
  . next hon =>
    cases hcomp
    rw [if_pos hon, compRemoveAenc_eq]
  . next hoff =>
    cases hcomp
    rw [if_neg hoff]

theorem filter_serverReq {p : MimeField → Bool} {compress : Bool}
    (hp : compress = true → ∀ f : MimeField, f.named "Accept-Encoding" → p f = false) (hdr : MimeHdr)
    : (if compress then removeField hdr "Accept-Encoding" else hdr).filter p = hdr.filter p := by
  split
  . next hon => exact filter_removeField (hp hon) hdr
  . rfl

theorem tail_append_eq_iff (l : MimeHdr) (new : MimeField) : l.tail ++ [new] = [new] ↔ l.length ≤ 1 := by
  rcases l with - | ⟨f, - | ⟨g, l⟩⟩
  . simp
  . simp
  . simp

theorem backendHost_eq_ok {req : RemapRequest} {rp : RemapPath} {target : RemapTarget} {host : Str}
    (h : backendHost req rp target = .ok host)
    : if rp.rpPreserveHost then req.rrHost = some host else host = target.rtHost := by
  unfold backendHost at h
  split at h
  . next hpreserve =>
    rw [if_pos hpreserve]
    exact (deref_eq_ok_iff _ _).mp h
  . next hpreserve =>
    rw [if_neg hpreserve]
    cases h
    rfl

/--
Of the fields that a client sends, the first Host and X-Forwarded-Proto fields give way to those of the plugin, the
first Cookie field is cut down where the response may be kept, the first Accept-Encoding field goes where it may be
compressed, and all others arrive in their order. So a backend can believe the plugin's fields alone exactly if the
client has sent no second one.
-/
theorem handleRequest_forwardedFields (env : Env) (state : State) (rnd : Nat) (data : Option (List UInt8))
    (client : ClientReq) (txn : Txn) (h : handleRequest env state rnd data (startTxn client) = .ok txn)
    (hbackend : txn.serverAddr.isSome ∨ txn.hostLookup.isSome) (rctx : TxnCtx) (hrctx : txn.hooks = some rctx)
    (henv : HookEnv) (before : List TxnEvent) (st : HookState)
    (hsent : tsiHooks henv rctx (before ++ [.sendRequestHdr txn.clientReq.hdr]) = .ok st)
    : ∃ db res rp target host, state.db = some db
        ∧ remapRun env db (requestFromTxn client) rnd = .ok (.ok, res)
        ∧ res.rzPath = some rp ∧ res.rzTarget = some target
        ∧ (if rp.rpPreserveHost then (requestFromTxn client).rrHost = some host else host = target.rtHost)
        ∧ (fieldsNamed st.comp.serverReq "Host" = [⟨str "Host", [host]⟩]
          ↔ (fieldsNamed client.hdr "Host").length ≤ 1)
        ∧ (state.config.coXfp = true →
          (fieldsNamed st.comp.serverReq "X-Forwarded-Proto" = [⟨str "X-Forwarded-Proto", [forwardedProto client]⟩]
            ↔ (fieldsNamed client.hdr "X-Forwarded-Proto").length ≤ 1))
        ∧ (if rp.rpCache then cookiesLeft rp (fieldsNamed client.hdr "Cookie")
            else .ok (fieldsNamed client.hdr "Cookie"))
          = .ok (fieldsNamed st.comp.serverReq "Cookie")
        ∧ fieldsNamed st.comp.serverReq "Accept-Encoding"
          = (if rp.rpCompress then (fieldsNamed client.hdr "Accept-Encoding").tail
            else fieldsNamed client.hdr "Accept-Encoding")
        ∧ st.comp.serverReq.filter (MimeField.untouched state.config.coXfp rp.rpCompress)
          = client.hdr.filter (MimeField.untouched state.config.coXfp rp.rpCompress) := by
  obtain ⟨db, res, rp, target, host, hdb, hrun, hrp, htarget, hhost, -, hcompress, hcaches⟩ :=
    backend_of_handleRequest h hbackend
  rw [hrctx, Option.map_some, Option.some.injEq] at hcompress
  have hserverReq := tsiHooks_serverReq hsent
  rw [hcompress] at hserverReq
  rw [hserverReq]
  refine ⟨db, res, rp, target, host, hdb, hrun, hrp, htarget, backendHost_eq_ok hhost, ?_, ?_, ?_, ?_, ?_⟩
  . rw [← tail_append_eq_iff _ ⟨str "Host", [host]⟩, ← fieldsNamed_host_forwardedHdr state client host]
    unfold fieldsNamed
    rw [filter_serverReq fun _ f hf => MimeField.named_eq_false_of_ne hf (by decide),
      hcaches.filter fun f hf => MimeField.named_eq_false_of_ne hf (by decide)]
  . intro hxfp
    have hproto := fieldsNamed_proto_forwardedHdr state client host
    rw [if_pos hxfp] at hproto
    rw [← tail_append_eq_iff _ ⟨str "X-Forwarded-Proto", [forwardedProto client]⟩, ← hproto]
    unfold fieldsNamed
    rw [filter_serverReq fun _ f hf => MimeField.named_eq_false_of_ne hf (by decide),
      hcaches.filter fun f hf => MimeField.named_eq_false_of_ne hf (by decide)]
  . have hcookies := hcaches.cookiesLeft
    rw [fieldsNamed_cookie_forwardedHdr] at hcookies
    rw [hcookies]
    unfold fieldsNamed
    rw [filter_serverReq fun _ f hf => MimeField.named_eq_false_of_ne hf (by decide)]
  . have hsame : fieldsNamed txn.clientReq.hdr "Accept-Encoding" = fieldsNamed client.hdr "Accept-Encoding" := by
      rw [← fieldsNamed_accept_forwardedHdr state client host]
      exact hcaches.filter fun f hf => MimeField.named_eq_false_of_ne hf (by decide)
    rw [← hsame]
    split
    . exact fieldsNamed_removeField _ _
    . rfl
  . rw [filter_serverReq fun hon f hf => by simp [MimeField.untouched, hon, hf],
      hcaches.filter fun f hf => by simp [MimeField.untouched, hf]]
    apply filter_forwardedHdr
    . intro f hf
      simp [MimeField.untouched, hf]
    . intro hxfp f hf
      simp [MimeField.untouched, hxfp, hf]

def edgeEnv : HookEnv where
  proxy := ⟨str "ATS", str "edge", []⟩
  tls := false
  requrl := ⟨none, none, none⟩
  cacheGen := 0
  lookup := none

def shopper : ClientReq :=
  { webClient with
    hdr := [⟨str "Host", [str "foo.com:80"]⟩, ⟨str "Accept-Encoding", [str "gzip"]⟩, ⟨str "Cookie", [str "a=1"]⟩,
      ⟨str "Accept", [str "*/*"]⟩] }

theorem selects_shopper
    : Selects plainEnv (pathDb oneBackendPath) (requestFromTxn shopper) (str "foo.com") (pathHost oneBackendPath)
        oneBackendPath 0 :=
  ⟨rfl, by decide, (selects_pathDb oneBackendPath (str "x")).2.2.1, rfl⟩

theorem handleRequest_shopper
    : ∃ txn rctx st, handleRequest plainEnv webState 0 none (startTxn shopper) = .ok txn
        ∧ txn.serverAddr = some (.inet 0x0302010A 80) ∧ txn.hooks = some rctx
        ∧ tsiHooks edgeEnv rctx ([] ++ [.sendRequestHdr txn.clientReq.hdr]) = .ok st := by
  have hrun := remapRun.eq_of_selects 0 selects_shopper
    (healthcheckMatches_pathDb oneBackendPath (str "x") (by decide)) (rrCheckTls_pathDb _ _ _ rfl)
  unfold handleRequest
  rw [handleRemap_eq rfl, hrun]
  exact ⟨_, _, _, rfl, rfl, rfl, rfl⟩

theorem handleRequest_forwardedFields_shopper
    : ∃ txn rctx st, handleRequest plainEnv webState 0 none (startTxn shopper) = .ok txn
        ∧ txn.hooks = some rctx
        ∧ tsiHooks edgeEnv rctx ([] ++ [.sendRequestHdr txn.clientReq.hdr]) = .ok st
        ∧ fieldsNamed st.comp.serverReq "Accept-Encoding" = []
        ∧ st.comp.serverReq.filter (MimeField.untouched true true) = [⟨str "Accept", [str "*/*"]⟩] := by
  rcases handleRequest_shopper with ⟨txn, rctx, st, h, haddr, hrctx, hst⟩
  refine ⟨txn, rctx, st, h, hrctx, hst, ?_⟩
  rcases handleRequest_forwardedFields plainEnv webState 0 none shopper txn h (.inl (by rw [haddr]; rfl)) rctx hrctx
    edgeEnv [] st hst with ⟨db, res, rp, target, host, hdb, hrun, hrp, htarget, -, -, -, -, hencoding, hothers⟩
  cases hdb
  rcases admitted_of_remapRun (by decide) hrun hrp htarget with ⟨_, rh, pfxsz, hsel, -⟩
  rcases hsel.unique selects_shopper with ⟨-, -, rfl, -⟩
  exact ⟨hencoding, hothers⟩
