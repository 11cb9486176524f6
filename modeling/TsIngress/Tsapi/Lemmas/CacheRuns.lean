import TsIngress.Tsapi.Lemmas.Response

/-!
This module contains what the cache of Traffic Server holds when the plugin decides what goes into it, after any
number of transactions and under any changes of the cluster.
-/

-- A transaction for which the plugin has switched caching on, and the key under which its response is looked up.
structure CacheTxn (env : Env) where
  state : State
  rnd : Nat
  data : Option (List UInt8)
  client : ClientReq
  txn : Txn
  url : Str
  generation : Int
  rnd_le : rnd ≤ env.randMax
  handled : handleRequest env state rnd data (startTxn client) = .ok txn
  http : txn.configGet .cacheHttp = some 1
  url_eq : txn.cacheUrl = some url
  generation_eq : txn.configGet .cacheGeneration = some generation

structure CacheEntry (env : Env) where
  url : Str
  generation : Int
  resp : MimeHdr
  -- the transaction that has fetched the response
  source : CacheTxn env

-- The cache takes the response of a transaction unless a hook forbids it, and may forget what it likes.
inductive CacheStep (env : Env) : List (CacheEntry env) → List (CacheEntry env) → Prop where
  | store {cache : List (CacheEntry env)} (t : CacheTxn env) {rctx : TxnCtx} (hrctx : t.txn.hooks = some rctx)
      {henv : HookEnv} {events : List TxnEvent} {st : HookState} (resp : MimeHdr)
      (hrun : tsiHooks henv rctx (events ++ [.readResponseHdr (some resp)]) = .ok st) (hstore : st.noStore = false)
      : CacheStep env cache (⟨t.url, t.generation, resp, t⟩ :: cache)
  | forget {cache cache' : List (CacheEntry env)} (h : cache' ⊆ cache) : CacheStep env cache cache'

-- The hooks of its source have let the response of an entry into the cache, under the key that the source has.
structure CacheEntry.Stored {env : Env} (entry : CacheEntry env) : Prop where
  url : entry.source.url = entry.url
  generation : entry.source.generation = entry.generation
  read : ∃ rctx henv events st, entry.source.txn.hooks = some rctx
    ∧ tsiHooks henv rctx (events ++ [.readResponseHdr (some entry.resp)]) = .ok st ∧ st.noStore = false

theorem backend_of_cacheHttp {env : Env} {state : State} {rnd : Nat} {data : Option (List UInt8)}
    {client : ClientReq} {txn : Txn} (h : handleRequest env state rnd data (startTxn client) = .ok txn)
    (hhttp : txn.configGet .cacheHttp = some 1)
    : txn.serverAddr.isSome ∨ txn.hostLookup.isSome := by
  unfold handleRequest at h
  rw [Except.bind_eq_ok_iff] at h
  rcases h with ⟨txn', hremap, h⟩
  cases handled_of_handleRemap hremap with
  | unready hdb =>
    cases h
    cases hhttp
  | answered hdb hrun hret =>
    cases h
    cases hhttp
  | @forwarded db res rp target txn' hdb hrun hrp htarget hforwards =>
    have haddressed := hforwards.addressed
    unfold Addressed at haddressed
    cases hpton : env.inetPton4 target.rtHost with
    | some addr =>
      rw [hpton] at haddressed
      rcases haddressed with ⟨haddr, hlookup, -⟩
      rw [hlookup] at h
      cases h
      rw [haddr]
      exact .inl rfl
    | none =>
      rw [hpton] at haddressed
      rcases haddressed with ⟨-, hlookup, -⟩
      obtain ⟨addr, heq⟩ := externalLookup_eq data txn'
      rw [hlookup, heq] at h
      cases h
      exact .inr (by rw [hlookup]; rfl)

-- What is known of a request whose response may be kept.
structure Cacheable (env : Env) (t : CacheTxn env) (res : RemapResult) (rp : RemapPath) : Prop where
  run : ∃ db, t.state.db = some db ∧ remapRun env db (requestFromTxn t.client) t.rnd = .ok (.ok, res)
  path : res.rzPath = some rp
  enabled : rp.rpCache = true
  admitted : Admitted env t.client rp
  key : remapMakeCacheKey (requestFromTxn t.client) res = .ok t.url
  generation : rp.rpCacheGen = t.generation
  cookies : (fieldsNamed t.client.hdr "Cookie").length ≤ 1 → fieldsNamed t.txn.clientReq.hdr "Cookie" = []
  canCache : ∀ rctx, t.txn.hooks = some rctx → rctx.rqCanCache = true

theorem CacheTxn.cacheable {env : Env} (t : CacheTxn env) : ∃ res rp, Cacheable env t res rp := by
  obtain ⟨b⟩ := backend_of_handleRequest t.handled (backend_of_cacheHttp t.handled t.http)
  rcases admitted_of_remapRun t.rnd_le b.run b.rp_eq b.target_eq with ⟨host, rh, pfxsz, -, -, hadmitted, -⟩
  refine ⟨b.res, b.rp, ?_⟩
  have hhttp := t.http
  have hurl := t.url_eq
  have hgen := t.generation_eq
  cases b.caches with
  | off _ _ _ hzero =>
    rw [hzero] at hhttp
    cases hhttp
  | cookies _ _ _ hzero =>
    rw [hzero] at hhttp
    cases hhttp
  | @on key hcache hcookies hkey hsome _ hgeneration hcan =>
    rw [hsome, Option.some_inj] at hurl
    rw [hgeneration, Option.some_inj] at hgen
    constructor
    . exact ⟨b.db, b.db_eq, b.run⟩
    . exact b.rp_eq
    . exact hcache
    . exact hadmitted
    . rw [hkey, hurl]
    . exact hgen
    . intro hone
      rw [(cookiesLeft_of_checkCookies hcookies).2 rfl, fieldsNamed_cookie_forwardedHdr]
      exact List.eq_nil_of_length_eq_zero (by rw [List.length_tail]; omega)
    . intro rctx hrctx
      unfold Txn.canCache at hcan
      rw [hrctx] at hcan
      exact hcan

theorem noStore_of_setCookie {henv : HookEnv} {rctx : TxnCtx} {events : List TxnEvent} {st : HookState} {resp : MimeHdr}
    (hcan : rctx.rqCanCache = true)
    (h : tsiHooks henv rctx (events ++ [.readResponseHdr (some resp)]) = .ok st) (hstore : st.noStore = false)
    : fieldsNamed resp "Set-Cookie" = [] := by
  unfold tsiHooks at h
  rw [List.foldlM_append, Except.bind_eq_ok_iff] at h
  rcases h with ⟨st', hst', h⟩
  have hrctx := tsiHooks_rctx hst'
  rw [List.foldlM_cons, Except.bind_eq_ok_iff] at h
  rcases h with ⟨st'', hlast, h⟩
  cases h
  simp only [tsiHook, Except.bind_eq_ok_iff] at hlast
  rcases hlast with ⟨comp, -, hlast⟩
  cases hlast
  dsimp only at hstore
  rw [hrctx, hcan, Bool.or_eq_false_iff] at hstore
  rcases tsMimeHdrFieldFind_cases resp "Set-Cookie" with ⟨-, hnone⟩ | ⟨before, field, after, hfirst⟩
  . exact hnone
  . have hcheck := hstore.2
    simp [checkResponseCache, hfirst.find] at hcheck

theorem stored_of_reachable {env : Env} {cache : List (CacheEntry env)}
    (h : Relation.ReflTransGen (CacheStep env) [] cache)
    : ∀ entry ∈ cache, entry.Stored := by
  induction h with
  | refl =>
    intro entry hentry
    cases hentry
  | tail _ hstep ih =>
    cases hstep with
    | forget hsub =>
      intro entry hentry
      exact ih entry (hsub hentry)
    | store t hrctx resp hrun hstore =>
      intro entry hentry
      rcases List.mem_cons.mp hentry with rfl | hentry
      . exact ⟨rfl, rfl, _, _, _, _, hrctx, hrun, hstore⟩
      . exact ih entry hentry

theorem CacheEntry.Stored.no_setCookie {env : Env} {entry : CacheEntry env} (h : entry.Stored)
    : fieldsNamed entry.resp "Set-Cookie" = [] := by
  rcases entry.source.cacheable with ⟨res, rp, hcacheable⟩
  rcases h.read with ⟨rctx, henv, events, st, hrctx, hrun, hstore⟩
  exact noStore_of_setCookie (hcacheable.canCache rctx hrctx) hrun hstore

theorem Cacheable.sameCacheFields {env : Env} {t t' : CacheTxn env} {res res' : RemapResult} {rp rp' : RemapPath}
    (h : Cacheable env t res rp) (h' : Cacheable env t' res' rp') (hurl : t.url = t'.url)
    (hfits : FitsCacheKey (requestFromTxn t.client) res) (hfits' : FitsCacheKey (requestFromTxn t'.client) res')
    : SameCacheFields (requestFromTxn t.client) res (requestFromTxn t'.client) res' := by
  rcases h.run with ⟨db, -, hrun⟩
  rcases h'.run with ⟨db', -, hrun'⟩
  rcases remapRun.inv_of_ok hrun with ⟨host, _, _, _, ⟨hhost, -⟩, hauth⟩
  rcases remapRun.inv_of_ok hrun' with ⟨host', _, _, _, ⟨hhost', -⟩, hauth'⟩
  have hsome := Option.isSome_of_eq_some hhost
  have hsome' := Option.isSome_of_eq_some hhost'
  have hkey : remapMakeCacheKey (requestFromTxn t.client) res = remapMakeCacheKey (requestFromTxn t'.client) res' := by
    rw [h.key, h'.key, hurl]
  rw [remapMakeCacheKey_eq_iff (remapRunAuthorized.proto_of_ok hauth) (remapRunAuthorized.proto_of_ok hauth') hsome
    hsome'] at hkey
  rcases hkey with ⟨hproto, hagree, hpath, hquery⟩
  by_contra hdiff
  have hbeyond : DifferBeyondPrefix (requestFromTxn t.client) res (requestFromTxn t'.client) res' :=
    ⟨hproto, hagree, hpath, hquery, hdiff⟩
  exact hbeyond.not_fits hsome hsome' ⟨hfits, hfits'⟩

/--
Whatever the transactions were, a response that the cache has for a request sets no cookie and was fetched by a
transaction with the same key, and so, as far as the fields fit their prefixes, for the same protocol, host, path and
query. Neither of the two has shown a cookie to a backend if it has at most one Cookie field, and both clients are
admitted by the paths that they have found.
-/
theorem cache_isolated (env : Env) (cache : List (CacheEntry env))
    (hrun : Relation.ReflTransGen (CacheStep env) [] cache) (entry : CacheEntry env) (hentry : entry ∈ cache)
    (t : CacheTxn env) (hurl : t.url = entry.url) (hgen : t.generation = entry.generation)
    : entry.Stored
        ∧
      fieldsNamed entry.resp "Set-Cookie" = []
        ∧
      ∃ (res0 res : RemapResult) (rp0 rp : RemapPath),
        Cacheable env entry.source res0 rp0 ∧ Cacheable env t res rp
          ∧ rp0.rpCacheGen = rp.rpCacheGen
          ∧ (FitsCacheKey (requestFromTxn entry.source.client) res0 → FitsCacheKey (requestFromTxn t.client) res →
            SameCacheFields (requestFromTxn entry.source.client) res0 (requestFromTxn t.client) res) := by
  have hstored := stored_of_reachable hrun entry hentry
  rcases entry.source.cacheable with ⟨res0, rp0, h0⟩
  rcases t.cacheable with ⟨res, rp, h⟩
  refine ⟨hstored, hstored.no_setCookie, res0, res, rp0, rp, h0, h, ?_, ?_⟩
  . rw [h0.generation, h.generation, hstored.generation, hgen]
  . intro hfits0 hfits
    exact h0.sameCacheFields h (hstored.url.trans hurl.symm) hfits0 hfits

theorem cache_isolated_webClient
    : ∃ (cache : List (CacheEntry plainEnv)) (entry : CacheEntry plainEnv) (t : CacheTxn plainEnv),
        Relation.ReflTransGen (CacheStep plainEnv) [] cache ∧ entry ∈ cache ∧ t.url = entry.url
          ∧ t.generation = entry.generation ∧ entry.Stored ∧ ∃ res rp, Cacheable plainEnv t res rp := by
  rcases handleRequest_webClient none with ⟨txn, h, -, hhttp, hgen, hurl, hhooks⟩
  rw [Option.isSome_iff_exists] at hurl hhooks
  rcases hurl with ⟨url, hurl⟩
  rcases hhooks with ⟨rctx, hrctx⟩
  let t : CacheTxn plainEnv := ⟨webState, 0, none, webClient, txn, url, 0, by decide, h, hhttp, hurl, hgen⟩
  have hhook : ∃ st, tsiHooks edgeEnv rctx ([] ++ [.readResponseHdr (some [])])
      = .ok st ∧ st.noStore = false := by
    unfold tsiHooks hookStart
    simp only [List.nil_append, List.foldlM_cons, List.foldlM_nil, tsiHook, tsiEvent]
    cases rctx.rqCompState with
    | none => exact ⟨_, rfl, by simp [checkResponseCache, tsMimeHdrFieldFind]⟩
    | some state => exact ⟨_, rfl, by simp [checkResponseCache, tsMimeHdrFieldFind]⟩
  rcases hhook with ⟨st, hst, hstore⟩
  have hrun : Relation.ReflTransGen (CacheStep plainEnv) [] [⟨url, 0, [], t⟩] :=
    .single (.store t hrctx [] hst hstore)
  have hisolated := cache_isolated plainEnv _ hrun ⟨url, 0, [], t⟩ (by simp) t rfl rfl
  rcases hisolated with ⟨hstored, -, res0, res, rp0, rp, -, hcacheable, -⟩
  exact ⟨_, ⟨url, 0, [], t⟩, t, hrun, by simp, rfl, rfl, hstored, res, rp, hcacheable⟩
