import TsIngress.Remap.Lemmas.Auth
import TsIngress.Remap.Lemmas.CacheKey
import TsIngress.Remap.Lemmas.Pick
import TsIngress.Tsapi.Impl.Txn
import TsIngress.Tsapi.Lemmas.Mime

/-!
This module contains the verification of `handle_remap`: what becomes of a request, and who gets to a backend.
-/

def lastField (hdr : MimeHdr) (key : Str) : Option MimeField :=
  (hdr.filter fun field => hdrfieldKey field.name = key).getLast?

theorem lastField_concat (hdr : MimeHdr) (field : MimeField) (key : Str)
    : lastField (hdr ++ [field]) key = if hdrfieldKey field.name = key then some field else lastField hdr key := by
  unfold lastField
  rw [List.filter_append]
  split
  . next hkey => simp [hkey]
  . next hkey => simp [hkey]

theorem hashGet_requestFromTxn (client : ClientReq) (key : Str)
    : hashGet (requestFromTxn client).rrHdrfields key = (lastField client.hdr key).map hdrfieldOf := by
  dsimp only [requestFromTxn]
  -- A later field of the same name hides the earlier ones, so the induction is from the end.
  induction client.hdr using List.reverseRecOn with
  | nil => exact ChainTable.get_new _ _ _
  | append_singleton hdr field ih =>
    rw [List.foldl_append, lastField_concat]
    dsimp only [List.foldl_cons, List.foldl_nil, hashGet, hashSet] at ih ⊢
    rw [ChainTable.get_set]
    by_cases hkey : hdrfieldKey field.name = key
    . rw [if_pos hkey, if_pos hkey.symm]
      rfl
    . rw [if_neg hkey, if_neg (Ne.symm hkey)]
      exact ih

-- The last Authorization field of the request has one value, and it is a name and a password of the path.
def Credentials (env : Env) (client : ClientReq) (rp : RemapPath) : Prop :=
  ∃ field value,
    lastField client.hdr (str "authorization") = some field
      ∧
    field.values.map cstr = [value]
      ∧
    authCheckBasic env value rp = 1

theorem authBasicOk_iff (env : Env) (client : ClientReq) (rp : RemapPath)
    : authBasicOk env (requestFromTxn client) rp = true ↔ Credentials env client rp := by
  unfold authBasicOk authorizationField Credentials
  rw [hashGet_requestFromTxn]
  cases lastField client.hdr (str "authorization") with
  | none => simp
  | some field =>
    have hfield : (∃ f value, some field = some f ∧ f.values.map cstr = [value] ∧ authCheckBasic env value rp = 1)
        ↔ ∃ value, field.values.map cstr = [value] ∧ authCheckBasic env value rp = 1 := by
      constructor
      . rintro ⟨f, value, hf, hvalue⟩
        cases hf
        exact ⟨value, hvalue⟩
      . rintro ⟨value, hvalue⟩
        exact ⟨field, value, rfl, hvalue⟩
    rw [hfield, Option.map_some, hdrfieldOf]
    generalize field.values.map cstr = values
    rcases values with - | ⟨value, - | ⟨other, rest⟩⟩
    . simp
    . simp
    . simp

/--
Who may use a path: those with a listed address and with valid credentials, as far as the path asks for them, or
with one of the two where that is enough.
-/
def Admitted (env : Env) (client : ClientReq) (rp : RemapPath) : Prop :=
  match rp.rpAuthSatisfy with
  | .all =>
    (rp.rpAuthAddrList = [] ∨ authCheckAddress env client.addr rp = true)
      ∧
    (rp.rpAuthType = .none ∨ Credentials env client rp)
  | .any =>
    (rp.rpAuthAddrList = [] ∧ rp.rpAuthType = .none)
      ∨
    (rp.rpAuthAddrList ≠ [] ∧ authCheckAddress env client.addr rp = true)
      ∨
    (rp.rpAuthType ≠ .none ∧ Credentials env client rp)

theorem authPolicy_iff (env : Env) (client : ClientReq) (rp : RemapPath)
    : AuthPolicy env (requestFromTxn client) rp ↔ Admitted env client rp := by
  have haddr : (requestFromTxn client).rrAddr = client.addr := rfl
  unfold AuthPolicy Admitted
  rw [authBasicOk_iff, haddr]
  rcases rp.rpAuthSatisfy.any_or_all with h | h
  . simp only [h]
    grind
  . simp only [h]
    grind

def TlsPassed (client : ClientReq) (rh : RemapHost) (rp : RemapPath) : Prop :=
  cstr client.scheme = str "https"
    ∨
  cstr client.scheme = str "wss"
    ∨
  rp.rpNoSslRedirect = true
    ∨
  (rh.rhCtx = none ∧ rp.rpForceSslRedirect = false)

theorem tlsPassed_of_rrCheckTls {client : ClientReq} {host : Str} {rh : RemapHost} {rp : RemapPath}
    {res res' : RemapResult} (h : rrCheckTls (requestFromTxn client) host rh rp res = (.ok, res'))
    : TlsPassed client rh rp := by
  unfold rrCheckTls at h
  unfold TlsPassed
  split at h
  . next hproto => exact hproto.elim .inl fun hproto => .inr (.inl hproto)
  . split at h
    . next hredirect => exact .inr (.inr (.inl hredirect))
    . split at h
      . next hctx =>
        refine .inr (.inr (.inr ⟨Option.isNone_iff_eq_none.mp hctx.1, ?_⟩))
        simpa using hctx.2
      . cases h

namespace remapRun

variable {env : Env} {db : RemapDb} {req : RemapRequest} {rnd : Nat} {res : RemapResult}

theorem auth_of_selects {host : Str} {rh : RemapHost} {rp : RemapPath} {pfxsz : Nat} {code : RR}
    (hsel : Selects env db req host rh rp pfxsz) (hhealth : healthcheckMatches db req = .ok false)
    (h : remapRun env db req rnd = .ok (code, res)) (hcode : code ≠ .synthetic)
    : rrCheckTls req host rh rp (.selected rh rp) = (.ok, .selected rh rp)
        ∧
      (rrCheckAuth env req rp (.selected rh rp) >>= fun
        | (.ok, res) => remapRunAuthorized env req rp pfxsz rnd res
        | (r, res) => .ok (r, res)) = .ok (code, res) := by
  rcases rrCheckTls_cases req host rh rp (.selected rh rp) with htls | htls
  . rw [eq_of_selects rnd hsel hhealth (by simp [htls])] at h
    exact ⟨htls, h⟩
  . rcases hsel with ⟨hhost, hne, hget, hfind⟩
    unfold RemapResult.selected at htls
    unfold remapRun at h
    rw [hhealth, Except.ok_bind] at h
    simp only [hhost, hne, hget, hfind, htls] at h
    cases h
    exact absurd rfl hcode

theorem passed_of_ok (h : remapRun env db req rnd = .ok (.ok, res))
    : ∃ host rh rp pfxsz,
        Selects env db req host rh rp pfxsz
          ∧
        rrCheckTls req host rh rp (.selected rh rp) = (.ok, .selected rh rp)
          ∧
        rrCheckAuth env req rp (.selected rh rp) = .ok (.ok, .selected rh rp)
          ∧
        remapRunAuthorized env req rp pfxsz rnd (.selected rh rp) = .ok (.ok, res) := by
  cases outcome h with
  | denied hhealth hsel hcode => simp at hcode
  | @authorized host rh rp pfxsz r hhealth hsel hrun =>
    rcases auth_of_selects hsel hhealth h (by decide) with ⟨htls, hauth⟩
    rw [Except.bind_eq_ok_iff] at hauth
    rcases hauth with ⟨⟨code, res1⟩, hauth, h⟩
    refine ⟨host, rh, rp, pfxsz, hsel, htls, ?_, hrun⟩
    rcases rrCheckAuth_cases hauth with ⟨rfl, rfl⟩ | ⟨rfl | rfl, headers, rfl⟩
    . exact hauth
    . cases h
    . cases h

theorem checkAuth_of_unauthorized (h : remapRun env db req rnd = .ok (.errUnauthorized, res))
    : ∃ host rh rp pfxsz,
        Selects env db req host rh rp pfxsz
          ∧
        rrCheckAuth env req rp (.selected rh rp) = .ok (.errUnauthorized, res) := by
  cases outcome h with
  | @denied host rh rp pfxsz code headers hhealth hsel hcode =>
    refine ⟨host, rh, rp, pfxsz, hsel, ?_⟩
    have hauth := (auth_of_selects hsel hhealth h (by decide)).2
    rw [Except.bind_eq_ok_iff] at hauth
    rcases hauth with ⟨⟨code1, res1⟩, hauth, h1⟩
    rcases rrCheckAuth_cases hauth with ⟨rfl, rfl⟩ | ⟨rfl | rfl, headers1, rfl⟩
    . cases remapRunAuthorized.outcome h1
    . cases h1
    . cases h1
      exact hauth
  | authorized _ _ hrun => cases remapRunAuthorized.outcome hrun

theorem unknown_of_noHost (h : remapRun env db req rnd = .ok (.errNoHost, res))
    : ∃ host, req.rrHost = some host ∧ remapDbGetHost db host = none := by
  unfold remapRun at h
  rw [Except.bind_eq_ok_iff] at h
  rcases h with ⟨answered, -, h⟩
  split at h
  . cases h
  . split at h
    . cases h
    . next host hhost =>
      split at h
      . cases h
      . split at h
        . next hget => exact ⟨host, hhost, hget⟩
        . next rh hget =>
          rcases remapHostFindPath_isSome env rh req.rrPath with ⟨rp, pfxsz, hfind⟩
          rw [hfind] at h
          dsimp only at h
          rcases rrCheckTls_cases req host rh rp (.selected rh rp) with htls | htls
          . rw [← RemapResult.selected, htls] at h
            dsimp only at h
            rw [Except.bind_eq_ok_iff] at h
            rcases h with ⟨⟨code, res1⟩, hauth, h⟩
            rcases rrCheckAuth_cases hauth with ⟨rfl, rfl⟩ | ⟨rfl | rfl, headers, rfl⟩
            . cases remapRunAuthorized.outcome h
            . cases h
            . cases h
          . rw [← RemapResult.selected, htls] at h
            cases h

end remapRun

def startTxn (client : ClientReq) : Txn :=
  { clientReq := client }

def hookedTxn (client : ClientReq) (res : RemapResult) : Txn where
  clientReq := client
  config := [
    (.normalizeAeGzip, 0),
    (.insertResponseViaStr, 0),
    (.insertRequestViaStr, 1),
    (.responseServerEnabled, 0)
  ]
  hooks := some { rqResponseHeaders := res.rzHeaders, rqDebugLog := res.rzPath.any (·.rpDebugLog) }

theorem handleRemap_eq {state : State} {db : RemapDb} (hdb : state.db = some db) (env : Env) (rnd : Nat)
    (client : ClientReq)
    : handleRemap env state rnd (startTxn client)
        =
      (remapRun env db (requestFromTxn client) rnd >>= fun r =>
        if r.1 = .ok then
          handleRemapOk env state (requestFromTxn client) r.2 (hookedTxn client r.2)
        else
          .ok { hookedTxn client r.2 with intercept := (remapReply r.1 r.2).map synthIntercept }.reenable) := by
  unfold handleRemap
  rw [hdb]
  rfl

def Txn.configGet (txn : Txn) (key : TsConfig) : Option Int :=
  ((txn.config.filter (·.1 = key)).getLast?).map Prod.snd

theorem Txn.configGet_configSet (txn : Txn) (key key' : TsConfig) (value : Int)
    : (txn.configSet key value).configGet key' = if key = key' then some value else txn.configGet key' := by
  unfold Txn.configGet Txn.configSet
  dsimp only
  rw [List.filter_append]
  split
  . next hkey => simp [hkey]
  . next hkey => simp [hkey]

def Txn.canCache (txn : Txn) : Bool :=
  txn.hooks.any (·.rqCanCache)

def forwardedHdr (state : State) (client : ClientReq) (host : Str) : MimeHdr :=
  if state.config.coXfp then
    addXfp (setHostField client.hdr host) client.tls
  else
    setHostField client.hdr host

-- What becomes of the header of a request, and whether its response may be kept.
inductive Caches (req : RemapRequest) (res : RemapResult) (rp : RemapPath) (hdr : MimeHdr) (txn : Txn) : Prop where
  | off (hcache : rp.rpCache = false) (hhdr : txn.clientReq.hdr = hdr) (hurl : txn.cacheUrl = none)
      (hhttp : txn.configGet .cacheHttp = some 0)
  | cookies (hcache : rp.rpCache = true) (hcookies : checkCookies rp hdr = .ok (false, txn.clientReq.hdr))
      (hurl : txn.cacheUrl = none) (hhttp : txn.configGet .cacheHttp = some 0)
  | on {key : Str} (hcache : rp.rpCache = true) (hcookies : checkCookies rp hdr = .ok (true, txn.clientReq.hdr))
      (hkey : remapMakeCacheKey req res = .ok key) (hurl : txn.cacheUrl = some key)
      (hhttp : txn.configGet .cacheHttp = some 1) (hgen : txn.configGet .cacheGeneration = some rp.rpCacheGen)
      (hctx : txn.canCache = true)

def Addressed (env : Env) (target : RemapTarget) (txn : Txn) : Prop :=
  match env.inetPton4 target.rtHost with
  | some addr =>
    txn.serverAddr = some (.inet addr (UInt16.ofInt target.rtPort)) ∧ txn.hostLookup = none ∧ txn.reenabled = 1
  | none => txn.serverAddr = none ∧ txn.hostLookup = some target.rtHost ∧ txn.reenabled = 0

structure Forwards (env : Env) (state : State) (req : RemapRequest) (res : RemapResult) (rp : RemapPath)
    (target : RemapTarget) (client : ClientReq) (txn : Txn) : Prop where
  intercept : txn.intercept = none
  url : txn.url = some (urlFromRemapResult res)
  client_eq : txn.clientReq = { client with hdr := txn.clientReq.hdr }
  headers : txn.hooks.map (·.rqResponseHeaders) = some res.rzHeaders
  compress : txn.hooks.map (·.rqCompress) = some rp.rpCompress
  addressed : Addressed env target txn
  caches : ∃ host, backendHost req rp target = .ok host ∧ Caches req res rp (forwardedHdr state client host) txn

theorem handleRemapConfig_eq (rh : RemapHost) (rp : RemapPath) (txn : Txn)
    : ∃ config, handleRemapConfig rh rp txn = { txn with config := config } := by
  unfold handleRemapConfig
  dsimp only
  split <;> split <;> split <;> exact ⟨_, rfl⟩

theorem handleRemapFields_eq (state : State) (host : Str) (txn : Txn)
    : handleRemapFields state host txn = txn.setHdr (forwardedHdr state txn.clientReq host) := by
  unfold handleRemapFields forwardedHdr
  split
  . rfl
  . rfl

theorem handleRemapCache_cases {req : RemapRequest} {res : RemapResult} {rp : RemapPath} {txn txn' : Txn}
    (h : handleRemapCache req res rp txn = .ok txn')
    : (rp.rpCache = false ∧ txn' = txn.configSet .cacheHttp 0)
        ∨
      (rp.rpCache = true ∧ ∃ hdr, checkCookies rp txn.clientReq.hdr = .ok (false, hdr)
        ∧ txn' = ((txn.configSet .cacheHttp 0).modifyCtx fun rctx => { rctx with rqCacheEnabled := true }).setHdr hdr)
        ∨
      (rp.rpCache = true ∧ ∃ hdr key, checkCookies rp txn.clientReq.hdr = .ok (true, hdr)
        ∧ remapMakeCacheKey req res = .ok key
        ∧ txn' = { ((((txn.configSet .cacheHttp 0).modifyCtx fun rctx =>
            { rctx with rqCacheEnabled := true }).setHdr hdr).modifyCtx fun rctx =>
            { rctx with rqCanCache := true }).configSet .cacheGeneration rp.rpCacheGen |>.configSet .cacheHttp 1 with
          cacheUrl := some key }) := by
  unfold handleRemapCache at h
  dsimp only at h
  split at h
  . next hcache =>
    rw [Except.bind_eq_ok_iff] at h
    rcases h with ⟨⟨canCache, hdr⟩, hcookies, h⟩
    cases canCache with
    | false =>
      cases h
      exact .inr (.inl ⟨hcache, hdr, hcookies, rfl⟩)
    | true =>
      dsimp only at h
      rw [if_pos rfl, Except.bind_eq_ok_iff] at h
      rcases h with ⟨key, hkey, h⟩
      cases h
      exact .inr (.inr ⟨hcache, hdr, key, hcookies, hkey, rfl⟩)
  . next hcache =>
    cases h
    exact .inl ⟨by simpa using hcache, rfl⟩

theorem addressed_handleRemapTarget (env : Env) (target : RemapTarget) {txn : Txn} (haddr : txn.serverAddr = none)
    (hlookup : txn.hostLookup = none) (hreenabled : txn.reenabled = 0)
    : Addressed env target (handleRemapTarget env target txn) := by
  unfold Addressed handleRemapTarget
  cases env.inetPton4 target.rtHost with
  | none => exact ⟨haddr, rfl, hreenabled⟩
  | some addr =>
    refine ⟨rfl, hlookup, ?_⟩
    dsimp only [Txn.reenable]
    rw [hreenabled]

theorem handleRemapTarget_eq (env : Env) (target : RemapTarget) (txn : Txn)
    : ∃ addr lookup reenabled, handleRemapTarget env target txn
        = { txn with serverAddr := addr, hostLookup := lookup, reenabled := reenabled } := by
  unfold handleRemapTarget
  split
  . exact ⟨_, _, _, rfl⟩
  . exact ⟨_, _, _, rfl⟩

theorem Caches.congr {req : RemapRequest} {res : RemapResult} {rp : RemapPath} {hdr : MimeHdr} {txn txn' : Txn}
    (h : Caches req res rp hdr txn) (hclient : txn'.clientReq = txn.clientReq) (hurl : txn'.cacheUrl = txn.cacheUrl)
    (hconfig : txn'.config = txn.config) (hctx : txn'.canCache = txn.canCache)
    : Caches req res rp hdr txn' := by
  have hget : ∀ key, txn'.configGet key = txn.configGet key := by
    intro key
    unfold Txn.configGet
    rw [hconfig]
  cases h with
  | off hcache hhdr hnone hhttp => exact .off hcache (hclient ▸ hhdr) (hurl ▸ hnone) (hget _ ▸ hhttp)
  | cookies hcache hcookies hnone hhttp => exact .cookies hcache (hclient ▸ hcookies) (hurl ▸ hnone) (hget _ ▸ hhttp)
  | on hcache hcookies hkey hsome hhttp hgen hcan =>
    exact .on hcache (hclient ▸ hcookies) hkey (hurl ▸ hsome) (hget _ ▸ hhttp) (hget _ ▸ hgen) (hctx ▸ hcan)

theorem caches_of_handleRemapCache {req : RemapRequest} {res : RemapResult} {rp : RemapPath} {txn txn' : Txn}
    (h : handleRemapCache req res rp txn = .ok txn') (hurl : txn.cacheUrl = none) (hhooks : txn.hooks.isSome)
    : Caches req res rp txn.clientReq.hdr txn' := by
  rcases handleRemapCache_cases h with ⟨hcache, rfl⟩ | ⟨hcache, hdr, hcookies, rfl⟩
    | ⟨hcache, hdr, key, hcookies, hkey, rfl⟩
  . refine .off hcache rfl hurl ?_
    rw [Txn.configGet_configSet, if_pos rfl]
  . refine .cookies hcache hcookies hurl ?_
    exact Txn.configGet_configSet txn .cacheHttp .cacheHttp 0
  . obtain ⟨rctx, hrctx⟩ := Option.isSome_iff_exists.mp hhooks
    refine .on hcache hcookies hkey rfl ?_ ?_ ?_
    . exact Txn.configGet_configSet _ .cacheHttp .cacheHttp 1
    . exact (Txn.configGet_configSet _ .cacheHttp .cacheGeneration 1).trans
        (Txn.configGet_configSet _ .cacheGeneration .cacheGeneration rp.rpCacheGen)
    . simp [Txn.canCache, Txn.modifyCtx, Txn.setHdr, Txn.configSet, hrctx]

structure SameTxn (txn txn' : Txn) : Prop where
  url : txn'.url = txn.url
  intercept : txn'.intercept = txn.intercept
  serverAddr : txn'.serverAddr = txn.serverAddr
  hostLookup : txn'.hostLookup = txn.hostLookup
  reenabled : txn'.reenabled = txn.reenabled
  client_eq : txn'.clientReq = { txn.clientReq with hdr := txn'.clientReq.hdr }
  headers : txn'.hooks.map (·.rqResponseHeaders) = txn.hooks.map (·.rqResponseHeaders)

namespace SameTxn

variable {txn txn' txn'' : Txn}

theorem trans (h : SameTxn txn txn') (h' : SameTxn txn' txn'') : SameTxn txn txn'' where
  url := h'.url.trans h.url
  intercept := h'.intercept.trans h.intercept
  serverAddr := h'.serverAddr.trans h.serverAddr
  hostLookup := h'.hostLookup.trans h.hostLookup
  reenabled := h'.reenabled.trans h.reenabled
  client_eq := by
    rw [h'.client_eq, h.client_eq]
  headers := h'.headers.trans h.headers

theorem configSet (txn : Txn) (key : TsConfig) (value : Int) : SameTxn txn (txn.configSet key value) := by
  constructor <;> rfl

theorem setHdr (txn : Txn) (hdr : MimeHdr) : SameTxn txn (txn.setHdr hdr) := by
  constructor <;> rfl

theorem modifyCtx (txn : Txn) {f : TxnCtx → TxnCtx} (hf : ∀ rctx, (f rctx).rqResponseHeaders = rctx.rqResponseHeaders)
    : SameTxn txn (txn.modifyCtx f) where
  url := rfl
  intercept := rfl
  serverAddr := rfl
  hostLookup := rfl
  reenabled := rfl
  client_eq := rfl
  headers := by
    unfold Txn.modifyCtx
    cases txn.hooks with
    | none => rfl
    | some rctx => exact congrArg some (hf rctx)

theorem of_handleRemapConfig (rh : RemapHost) (rp : RemapPath) (txn : Txn)
    : SameTxn txn (handleRemapConfig rh rp txn) := by
  obtain ⟨config, hconfig⟩ := handleRemapConfig_eq rh rp txn
  rw [hconfig]
  constructor <;> rfl

theorem of_handleRemapCache {req : RemapRequest} {res : RemapResult} {rp : RemapPath}
    (h : handleRemapCache req res rp txn = .ok txn')
    : SameTxn txn txn' := by
  rcases handleRemapCache_cases h with ⟨-, rfl⟩ | ⟨-, hdr, -, rfl⟩ | ⟨-, hdr, key, -, -, rfl⟩
  . exact configSet txn .cacheHttp 0
  . exact ((configSet txn .cacheHttp 0).trans
      (modifyCtx (f := fun rctx => { rctx with rqCacheEnabled := true }) _ fun _ => rfl)).trans (setHdr _ hdr)
  . have hprepared := ((configSet txn .cacheHttp 0).trans
      (modifyCtx (f := fun rctx => { rctx with rqCacheEnabled := true }) _ fun _ => rfl)).trans (setHdr _ hdr)
    have hcached := hprepared.trans
      (modifyCtx (f := fun rctx => { rctx with rqCanCache := true }) _ fun _ => rfl)
    exact ⟨hcached.url, hcached.intercept, hcached.serverAddr, hcached.hostLookup, hcached.reenabled,
      hcached.client_eq, hcached.headers⟩

end SameTxn

def compressTxn (rp : RemapPath) (txn : Txn) : Txn :=
  if rp.rpCompress then
    txn.modifyCtx fun rctx =>
      { rctx with toRequestCtx := tsiCompress { rctx.toRequestCtx with rqCompress := true } rp txn.clientReq.hdr }
  else
    txn

theorem SameTxn.of_compressTxn (rp : RemapPath) (txn : Txn) : SameTxn txn (compressTxn rp txn) := by
  unfold compressTxn
  split
  . exact modifyCtx txn fun _ => rfl
  . constructor <;> rfl

theorem Caches.of_compressTxn {req : RemapRequest} {res : RemapResult} {rp : RemapPath} {hdr : MimeHdr} {txn : Txn}
    (h : Caches req res rp hdr txn)
    : Caches req res rp hdr (compressTxn rp txn) := by
  unfold compressTxn
  split
  . refine h.congr rfl rfl rfl ?_
    unfold Txn.canCache Txn.modifyCtx
    cases txn.hooks with
    | none => rfl
    | some rctx => rfl
  . exact h

theorem map_rqCompress_modifyCtx (txn : Txn) {f : TxnCtx → TxnCtx} (hf : ∀ rctx, (f rctx).rqCompress = rctx.rqCompress)
    : (txn.modifyCtx f).hooks.map (·.rqCompress) = txn.hooks.map (·.rqCompress) := by
  unfold Txn.modifyCtx
  rw [Option.map_map]
  congr 1
  funext rctx
  exact hf rctx

theorem map_rqCompress_handleRemapCache {req : RemapRequest} {res : RemapResult} {rp : RemapPath} {txn txn' : Txn}
    (h : handleRemapCache req res rp txn = .ok txn')
    : txn'.hooks.map (·.rqCompress) = txn.hooks.map (·.rqCompress) := by
  have henabled := map_rqCompress_modifyCtx (f := fun rctx => { rctx with rqCacheEnabled := true })
    (txn.configSet .cacheHttp 0) fun _ => rfl
  rcases handleRemapCache_cases h with ⟨-, rfl⟩ | ⟨-, hdr, -, rfl⟩ | ⟨-, hdr, key, -, -, rfl⟩
  . rfl
  . exact henabled
  . have hcached := map_rqCompress_modifyCtx (f := fun rctx => { rctx with rqCanCache := true })
      (((txn.configSet .cacheHttp 0).modifyCtx fun rctx => { rctx with rqCacheEnabled := true }).setHdr hdr)
      fun _ => rfl
    exact hcached.trans henabled

theorem map_rqCompress_compressTxn (rp : RemapPath) {txn : Txn} (h : txn.hooks.map (·.rqCompress) = some false)
    : (compressTxn rp txn).hooks.map (·.rqCompress) = some rp.rpCompress := by
  rcases Option.map_eq_some_iff.mp h with ⟨rctx, hrctx, hfalse⟩
  unfold compressTxn
  split
  . next hcompress =>
    unfold Txn.modifyCtx tsiCompress
    rw [hrctx, hcompress, Option.map_some, Option.map_some]
    dsimp only
    split
    . rfl
    . rfl
  . next hcompress =>
    rw [Bool.not_eq_true] at hcompress
    rw [h, hcompress]

theorem handleRemapOk_eq_ok {env : Env} {state : State} {req : RemapRequest} {res : RemapResult} {txn txn' : Txn}
    (h : handleRemapOk env state req res txn = .ok txn')
    : ∃ rp target host mid, res.rzPath = some rp ∧ res.rzTarget = some target
        ∧ backendHost req rp target = .ok host
        ∧ SameTxn { txn with url := some (urlFromRemapResult res) } mid
        ∧ (txn.cacheUrl = none → txn.hooks.isSome →
          Caches req res rp (forwardedHdr state txn.clientReq host) mid)
        ∧ (txn.hooks.map (·.rqCompress) = some false → mid.hooks.map (·.rqCompress) = some rp.rpCompress)
        ∧ txn' = handleRemapTarget env target mid := by
  unfold handleRemapOk at h
  simp only [Except.bind_eq_ok_iff, deref_eq_ok_iff] at h
  rcases h with ⟨rh, -, rp, hrp, target, htarget, host, hhost, mid, hmid, h⟩
  have hserved := SameTxn.modifyCtx { txn with url := some (urlFromRemapResult res) }
    (f := fun rctx => { rctx with rqServerPush := rp.rpServerPush }) fun _ => rfl
  have hconfigured := hserved.trans (SameTxn.of_handleRemapConfig rh rp _)
  rw [handleRemapFields_eq] at hmid
  have hsame := (hconfigured.trans (SameTxn.setHdr _ _)).trans (SameTxn.of_handleRemapCache hmid)
  refine ⟨rp, target, host, compressTxn rp { mid with skipRemapping := true }, hrp, htarget, hhost, ?_, ?_, ?_, ?_⟩
  . refine SameTxn.trans ?_ (SameTxn.of_compressTxn rp _)
    exact ⟨hsame.url, hsame.intercept, hsame.serverAddr, hsame.hostLookup, hsame.reenabled, hsame.client_eq,
      hsame.headers⟩
  . intro hurl hhooks
    obtain ⟨config, hconfig⟩ := handleRemapConfig_eq rh rp
      ({ txn with url := some (urlFromRemapResult res) }.modifyCtx fun rctx =>
        { rctx with rqServerPush := rp.rpServerPush })
    rw [hconfig] at hmid
    have hcaches := caches_of_handleRemapCache hmid hurl (by simpa [Txn.setHdr, Txn.modifyCtx] using hhooks)
    apply Caches.of_compressTxn
    exact hcaches.congr rfl rfl rfl rfl
  . intro hfalse
    obtain ⟨config, hconfig⟩ := handleRemapConfig_eq rh rp
      ({ txn with url := some (urlFromRemapResult res) }.modifyCtx fun rctx =>
        { rctx with rqServerPush := rp.rpServerPush })
    rw [hconfig] at hmid
    apply map_rqCompress_compressTxn
    have hpushes := map_rqCompress_modifyCtx (f := fun rctx => { rctx with rqServerPush := rp.rpServerPush })
      { txn with url := some (urlFromRemapResult res) } fun _ => rfl
    exact (map_rqCompress_handleRemapCache hmid).trans (hpushes.trans hfalse)
  . cases h
    rfl

theorem forwards_of_handleRemapOk {env : Env} {state : State} {req : RemapRequest} {res : RemapResult}
    {client : ClientReq} {txn : Txn} (h : handleRemapOk env state req res (hookedTxn client res) = .ok txn)
    : ∃ rp target, res.rzPath = some rp ∧ res.rzTarget = some target
        ∧ Forwards env state req res rp target client txn := by
  rcases handleRemapOk_eq_ok h with
    ⟨rp, target, host, mid, hrp, htarget, hhost, hsame, hcaches, hcompress, rfl⟩
  have haddressed := addressed_handleRemapTarget env target hsame.serverAddr hsame.hostLookup hsame.reenabled
  obtain ⟨addr, lookup, reenabled, htxn⟩ := handleRemapTarget_eq env target mid
  refine ⟨rp, target, hrp, htarget, ?_⟩
  rw [htxn] at haddressed ⊢
  constructor
  . exact hsame.intercept
  . exact hsame.url
  . exact hsame.client_eq
  . exact hsame.headers
  . exact hcompress rfl
  . exact haddressed
  . exact ⟨host, hhost, (hcaches rfl rfl).congr rfl rfl rfl rfl⟩

inductive Handled (env : Env) (state : State) (rnd : Nat) (client : ClientReq) : Txn → Prop where
  | unready (hdb : state.db = none) : Handled env state rnd client (startTxn client)
  | answered {db : RemapDb} {ret : RR} {res : RemapResult} (hdb : state.db = some db)
      (hrun : remapRun env db (requestFromTxn client) rnd = .ok (ret, res)) (hret : ret ≠ .ok)
      : Handled env state rnd client
          { hookedTxn client res with intercept := (remapReply ret res).map synthIntercept }.reenable
  | forwarded {db : RemapDb} {res : RemapResult} {rp : RemapPath} {target : RemapTarget} {txn : Txn}
      (hdb : state.db = some db) (hrun : remapRun env db (requestFromTxn client) rnd = .ok (.ok, res))
      (hrp : res.rzPath = some rp) (htarget : res.rzTarget = some target)
      (hforwards : Forwards env state (requestFromTxn client) res rp target client txn)
      : Handled env state rnd client txn

theorem handled_of_handleRemap {env : Env} {state : State} {rnd : Nat} {client : ClientReq} {txn : Txn}
    (h : handleRemap env state rnd (startTxn client) = .ok txn)
    : Handled env state rnd client txn := by
  cases hdb : state.db with
  | none =>
    unfold handleRemap at h
    rw [hdb] at h
    cases h
    exact .unready hdb
  | some db =>
    rw [handleRemap_eq hdb, Except.bind_eq_ok_iff] at h
    rcases h with ⟨⟨ret, res⟩, hrun, h⟩
    dsimp only at h
    split at h
    . next hret =>
      subst hret
      rcases forwards_of_handleRemapOk h with ⟨rp, target, hrp, htarget, hforwards⟩
      exact .forwarded hdb hrun hrp htarget hforwards
    . next hret =>
      cases h
      exact .answered hdb hrun hret

-- The backend that a transaction has for its target, when a lookup has ended with `data`.
def Contacts (env : Env) (target : RemapTarget) (data : Option (List UInt8)) (txn : Txn) : Prop :=
  match env.inetPton4 target.rtHost with
  | some addr => txn.hostLookup = none ∧ txn.serverAddr = some (.inet addr (UInt16.ofInt target.rtPort))
  | none => txn.hostLookup = some target.rtHost ∧ txn.serverAddr = data.map .looked

theorem Addressed.handleRequest {env : Env} {target : RemapTarget} {txn : Txn} (h : Addressed env target txn)
    (data : Option (List UInt8))
    : let txn' := if txn.hostLookup.isSome then externalLookup data txn else txn
      txn'.reenabled = 1 ∧ txn'.intercept = txn.intercept ∧ Contacts env target data txn' := by
  unfold Addressed at h
  unfold Contacts
  cases hpton : env.inetPton4 target.rtHost with
  | some addr =>
    rw [hpton] at h
    rcases h with ⟨haddr, hlookup, hreenabled⟩
    rw [hlookup]
    exact ⟨hreenabled, rfl, hlookup, haddr⟩
  | none =>
    rw [hpton] at h
    rcases h with ⟨haddr, hlookup, hreenabled⟩
    rw [hlookup]
    cases data with
    | none => exact ⟨congrArg (· + 1) hreenabled, rfl, hlookup, haddr⟩
    | some data => exact ⟨congrArg (· + 1) hreenabled, rfl, hlookup, rfl⟩

theorem admitted_of_remapRun {env : Env} {db : RemapDb} {client : ClientReq} {rnd : Nat} {res : RemapResult}
    {rp : RemapPath} {target : RemapTarget} (hrnd : rnd ≤ env.randMax)
    (h : remapRun env db (requestFromTxn client) rnd = .ok (.ok, res)) (hrp : res.rzPath = some rp)
    (htarget : res.rzTarget = some target)
    : ∃ host rh pfxsz, Selects env db (requestFromTxn client) host rh rp pfxsz ∧ TlsPassed client rh rp
        ∧ Admitted env client rp ∧ target ∈ rp.rpAddrs := by
  rcases remapRun.passed_of_ok h with ⟨host, rh, rp', pfxsz, hsel, htls, hauth, hrun⟩
  generalize hr : ((RR.ok, res) : RR × RemapResult) = r at hrun
  cases remapRunAuthorized.outcome hrun with
  | cors => cases hr
  | appRoot => cases hr
  | invalidProtocol => cases hr
  | noBackend => cases hr
  | picked hproto haddrs =>
    cases hr
    cases hrp
    rcases remapPathPickTarget_mem haddrs hrnd with ⟨target', hmem, hpick⟩
    cases hpick.symm.trans htarget
    refine ⟨host, rh, pfxsz, hsel, tlsPassed_of_rrCheckTls htls, ?_, hmem⟩
    rw [← authPolicy_iff, ← rrCheckAuth.ok_iff env _ _ (.selected rh rp)]
    exact ⟨_, hauth⟩

theorem remapReply_isSome {ret : RR} (res : RemapResult) (hok : ret ≠ .ok) (hhost : ret ≠ .errNoHost)
    (hpath : ret ≠ .errNoPath)
    : (remapReply ret res).isSome := by
  cases ret with
  | ok => exact absurd rfl hok
  | errNoHost => exact absurd rfl hhost
  | errNoPath => exact absurd rfl hpath
  | _ => rfl

theorem remapRun.ne_noPath {env : Env} {db : RemapDb} {req : RemapRequest} {rnd : Nat} {r : RR × RemapResult}
    (h : remapRun env db req rnd = .ok r)
    : r.1 ≠ .errNoPath := by
  cases outcome h with
  | healthcheck => simp
  | invalidHost => simp
  | noHost => simp
  | tls => simp
  | denied _ _ hcode =>
    rcases hcode with rfl | rfl
    . simp
    . simp
  | authorized _ _ hrun =>
    cases remapRunAuthorized.outcome hrun with
    | _ => simp

/--
A request is left alone before there is a database. From then on the transaction goes on exactly once, and either
no backend is set for it, because the plugin answers itself or does not know the host, or it goes to a target of
the path it has found, over TLS where that is due, and only for a client that the path admits.
-/
theorem handleRequest_disposition (env : Env) (state : State) (rnd : Nat) (hrnd : rnd ≤ env.randMax)
    (data : Option (List UInt8)) (client : ClientReq) (txn : Txn)
    (h : handleRequest env state rnd data (startTxn client) = .ok txn)
    : (state.db = none ∧ txn = startTxn client)
        ∨
      ∃ db, state.db = some db ∧ txn.reenabled = 1
        ∧
      ((txn.serverAddr = none ∧ txn.hostLookup = none ∧ txn.clientReq = client ∧ txn.url = none
          ∧ (txn.intercept = none →
            ∃ host, (requestFromTxn client).rrHost = some host ∧ remapDbGetHost db host = none))
          ∨
        (txn.intercept = none
          ∧ ∃ host rh rp pfxsz target, Selects env db (requestFromTxn client) host rh rp pfxsz
            ∧ TlsPassed client rh rp ∧ Admitted env client rp ∧ target ∈ rp.rpAddrs
            ∧ Contacts env target data txn)) := by
  unfold handleRequest at h
  rw [Except.bind_eq_ok_iff] at h
  rcases h with ⟨txn', hremap, h⟩
  cases handled_of_handleRemap hremap with
  | unready hdb =>
    cases h
    exact .inl ⟨hdb, rfl⟩
  | @answered db ret res hdb hrun hret =>
    cases h
    refine .inr ⟨db, hdb, rfl, .inl ⟨rfl, rfl, rfl, rfl, ?_⟩⟩
    intro hnone
    by_cases hhost : ret = .errNoHost
    . rw [hhost] at hrun
      exact remapRun.unknown_of_noHost hrun
    . have hreply := remapReply_isSome res hret hhost (remapRun.ne_noPath hrun)
      rw [Option.isSome_iff_exists] at hreply
      rcases hreply with ⟨sy, hsy⟩
      dsimp only [Txn.reenable] at hnone
      rw [hsy] at hnone
      cases hnone
  | @forwarded db res rp target txn' hdb hrun hrp htarget hforwards =>
    rcases admitted_of_remapRun hrnd hrun hrp htarget with ⟨host, rh, pfxsz, hsel, htls, hadmitted, hmem⟩
    rcases hforwards.addressed.handleRequest data with ⟨hreenabled, hintercept, hcontacts⟩
    have htxn : (if txn'.hostLookup.isSome then externalLookup data txn' else txn') = txn := by
      split at h
      . next hlookup =>
        cases h
        rw [if_pos hlookup]
      . next hlookup =>
        cases h
        rw [if_neg hlookup]
    rw [htxn] at hreenabled hintercept hcontacts
    exact .inr ⟨db, hdb, hreenabled, .inr ⟨hintercept.trans hforwards.intercept, host, rh, rp, pfxsz, target, hsel,
      htls, hadmitted, hmem, hcontacts⟩⟩

def webClient : ClientReq where
  method := str "GET"
  scheme := str "http"
  host := some (str "foo.com:80")
  path := some (str "x")
  query := none
  hdr := []
  addr := .other
  tls := false

def webState : State :=
  ⟨k8sConfigNew, some (pathDb oneBackendPath)⟩

theorem handleRequest_webClient (data : Option (List UInt8))
    : ∃ txn, handleRequest plainEnv webState 0 data (startTxn webClient) = .ok txn
        ∧ txn.serverAddr = some (.inet 0x0302010A 80)
        ∧ txn.configGet .cacheHttp = some 1 ∧ txn.configGet .cacheGeneration = some 0
        ∧ txn.cacheUrl.isSome ∧ txn.hooks.isSome := by
  have hreq : requestFromTxn webClient = getRequest (str "x") := by
    rfl
  have hrun := remapRun.eq_of_selects 0 (selects_pathDb oneBackendPath (str "x"))
    (healthcheckMatches_pathDb oneBackendPath (str "x") (by decide)) (rrCheckTls_pathDb _ _ _ rfl)
  unfold handleRequest
  rw [handleRemap_eq rfl, hreq, hrun]
  cases data with
  | none => exact ⟨_, rfl, rfl, rfl, rfl, rfl, rfl⟩
  | some data => exact ⟨_, rfl, rfl, rfl, rfl, rfl, rfl⟩

theorem handleRequest_disposition_webClient
    : ∃ txn, handleRequest plainEnv webState 0 none (startTxn webClient) = .ok txn
        ∧ txn.reenabled = 1 ∧ txn.intercept = none ∧ txn.serverAddr = some (.inet 0x0302010A 80) := by
  rcases handleRequest_webClient none with ⟨txn, h, haddr, -⟩
  rcases handleRequest_disposition plainEnv webState 0 (by decide) none webClient txn h with
    ⟨hdb, -⟩ | ⟨db, -, hreenabled, ⟨hnone, -⟩ | ⟨hintercept, -⟩⟩
  . cases hdb
  . rw [hnone] at haddr
    cases haddr
  . exact ⟨txn, h, hreenabled, hintercept, haddr⟩
