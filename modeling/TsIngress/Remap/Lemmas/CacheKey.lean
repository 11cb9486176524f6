import TsIngress.Remap.Impl.CacheKey
import TsIngress.Remap.Lemmas.Run
import TsIngress.Util.Lemmas.Base64
import TsIngress.Lib.LengthPrefix

open LengthPrefix

theorem cacheKeyBuf_eq_fields (proto host path query : Str)
    : cacheKeyBuf proto host path query
        =
      field 1 proto ++ (field 1 host ++ (field 2 path ++ (field 2 query ++ []))) := by
  have hlow : ∀ n : Nat, (UInt16.ofNat n &&& (0xFF : UInt16)).toUInt8 = UInt8.ofNat n := by
    intro n
    rw [← UInt8.toNat_inj]
    simp only [UInt16.toNat_toUInt8, UInt16.toNat_and, UInt16.toNat_ofNat', UInt8.toNat_ofNat',
      UInt16.reduceToNat]
    have := Nat.and_two_pow_sub_one_eq_mod (n % 2 ^ 16) 8
    simp only [Nat.reducePow, Nat.reduceSub] at this ⊢
    rw [this]
    omega
  have hhigh : ∀ n : Nat,
      ((UInt16.ofNat n >>> (8 : UInt16)) &&& (0xFF : UInt16)).toUInt8 = UInt8.ofNat (n / 256) := by
    intro n
    rw [← UInt8.toNat_inj]
    simp only [UInt16.toNat_toUInt8, UInt16.toNat_and, UInt16.toNat_shiftRight,
      UInt16.toNat_ofNat', UInt8.toNat_ofNat', UInt16.reduceToNat]
    have := Nat.and_two_pow_sub_one_eq_mod ((n % 2 ^ 16) >>> (8 % 16)) 8
    simp only [Nat.reducePow, Nat.reduceSub, Nat.reduceMod, Nat.shiftRight_eq_div_pow] at this ⊢
    rw [this]
    omega
  unfold cacheKeyBuf field kept
  simp only [leBytes, hlow, hhigh, UInt8.toNat_ofNat', UInt16.toNat_ofNat', Nat.reducePow]
  simp

theorem cacheKeyBuf_eq_iff (proto host path query proto' host' path' query' : Str)
    : cacheKeyBuf proto host path query = cacheKeyBuf proto' host' path' query'
        ↔
      Agree 1 proto proto' ∧ Agree 1 host host' ∧ Agree 2 path path' ∧ Agree 2 query query' := by
  rw [cacheKeyBuf_eq_fields, cacheKeyBuf_eq_fields, field_append_inj, field_append_inj,
    field_append_inj, field_append_inj]
  simp

def SameCacheFields (req : RemapRequest) (res : RemapResult) (req' : RemapRequest)
    (res' : RemapResult) : Prop :=
  req.rrProto = req'.rrProto
    ∧
  req.rrHost = req'.rrHost
    ∧
  req.rrPath.getD [] = req'.rrPath.getD []
    ∧
  res.rzQuery.getD [] = res'.rzQuery.getD []

/--
Two requests that differ, but only in what the length prefixes of the key lose: the lengths of host,
path and query agree modulo 2^8 and 2^16, and so do the bytes the narrowed lengths cover.
-/
def DifferBeyondPrefix (req : RemapRequest) (res : RemapResult) (req' : RemapRequest)
    (res' : RemapResult) : Prop :=
  req.rrProto = req'.rrProto
    ∧
  Agree 1 (req.rrHost.getD []) (req'.rrHost.getD [])
    ∧
  Agree 2 (req.rrPath.getD []) (req'.rrPath.getD [])
    ∧
  Agree 2 (res.rzQuery.getD []) (res'.rzQuery.getD [])
    ∧
  ¬ SameCacheFields req res req' res'

def FitsCacheKey (req : RemapRequest) (res : RemapResult) : Prop :=
  (req.rrHost.getD []).length < 0x100
    ∧
  (req.rrPath.getD []).length < 0x10000
    ∧
  (res.rzQuery.getD []).length < 0x10000

theorem DifferBeyondPrefix.not_fits {req req' : RemapRequest} {res res' : RemapResult}
    (h : DifferBeyondPrefix req res req' res') (hhost : req.rrHost.isSome)
    (hhost' : req'.rrHost.isSome)
    : ¬ (FitsCacheKey req res ∧ FitsCacheKey req' res') := by
  rintro ⟨⟨hh, hp, hq⟩, ⟨hh', hp', hq'⟩⟩
  rcases h with ⟨hproto, hahost, hapath, haquery, hdiff⟩
  apply hdiff
  have heq := hahost.eq_of_fits hh hh'
  rw [Option.isSome_iff_exists] at hhost hhost'
  rcases hhost with ⟨host, hhost⟩
  rcases hhost' with ⟨host', hhost'⟩
  rw [hhost, hhost', Option.getD_some, Option.getD_some] at heq
  refine ⟨hproto, ?_, hapath.eq_of_fits hp hp', haquery.eq_of_fits hq hq'⟩
  rw [hhost, hhost', heq]

theorem length_proto_lt {proto : Str}
    (h : proto ∈ [str "http", str "https", str "ws", str "wss"])
    : proto.length < 256 ^ 1 := by
  simp only [List.mem_cons, List.not_mem_nil, or_false] at h
  rcases h with h | h | h | h <;> subst h <;> decide

theorem remapMakeCacheKey_eq_iff {req req' : RemapRequest} {res res' : RemapResult}
    (hproto : req.rrProto ∈ [str "http", str "https", str "ws", str "wss"])
    (hproto' : req'.rrProto ∈ [str "http", str "https", str "ws", str "wss"])
    (hhost : req.rrHost.isSome) (hhost' : req'.rrHost.isSome)
    : remapMakeCacheKey req res = remapMakeCacheKey req' res'
        ↔
      req.rrProto = req'.rrProto
        ∧
      Agree 1 (req.rrHost.getD []) (req'.rrHost.getD [])
        ∧
      Agree 2 (req.rrPath.getD []) (req'.rrPath.getD [])
        ∧
      Agree 2 (res.rzQuery.getD []) (res'.rzQuery.getD []) := by
  rw [Option.isSome_iff_exists] at hhost hhost'
  rcases hhost with ⟨host, hhost⟩
  rcases hhost' with ⟨host', hhost'⟩
  have hagree : Agree 1 req.rrProto req'.rrProto ↔ req.rrProto = req'.rrProto := by
    constructor
    . intro h
      exact h.eq_of_fits (length_proto_lt hproto) (length_proto_lt hproto')
    . intro h
      rw [h]
      apply Agree.refl
  rw [← hagree]
  simp only [remapMakeCacheKey, hhost, hhost', deref_some, Except.ok_bind, Except.pure_eq_ok,
    Except.ok.injEq, List.cons.injEq, true_and, Option.getD_some]
  rw [← cacheKeyBuf_eq_iff]
  constructor
  . intro h
    exact base64Encode_injective h
  . intro h
    rw [h]

/--
Requests that reach a backend have their own cache keys exactly when they do not differ only in what
the length prefixes lose. Requests that fit the prefixes always have.
-/
theorem remapMakeCacheKey_injective_iff (env : Env) (db db' : RemapDb) (req req' : RemapRequest)
    (rnd rnd' : Nat) (res res' : RemapResult) (hrun : remapRun env db req rnd = .ok (.ok, res))
    (hrun' : remapRun env db' req' rnd' = .ok (.ok, res'))
    : ((remapMakeCacheKey req res = remapMakeCacheKey req' res' → SameCacheFields req res req' res')
        ↔
      ¬ DifferBeyondPrefix req res req' res')
        ∧
      (FitsCacheKey req res ∧ FitsCacheKey req' res' →
        remapMakeCacheKey req res = remapMakeCacheKey req' res' →
        SameCacheFields req res req' res') := by
  rcases remapRun.inv_of_ok hrun with ⟨host, _, _, _, ⟨hhost, -⟩, hauth⟩
  rcases remapRun.inv_of_ok hrun' with ⟨host', _, _, _, ⟨hhost', -⟩, hauth'⟩
  have hsome : req.rrHost.isSome := by
    rw [hhost]
    rfl
  have hsome' : req'.rrHost.isSome := by
    rw [hhost']
    rfl
  have hiff : (remapMakeCacheKey req res = remapMakeCacheKey req' res' →
      SameCacheFields req res req' res') ↔ ¬ DifferBeyondPrefix req res req' res' := by
    rw [remapMakeCacheKey_eq_iff (remapRunAuthorized.proto_of_ok hauth)
      (remapRunAuthorized.proto_of_ok hauth') hsome hsome']
    unfold DifferBeyondPrefix
    constructor
    . rintro h ⟨hproto, hagree, hpath, hquery, hdiff⟩
      exact hdiff (h ⟨hproto, hagree, hpath, hquery⟩)
    . rintro h ⟨hproto, hagree, hpath, hquery⟩
      by_contra hdiff
      exact h ⟨hproto, hagree, hpath, hquery, hdiff⟩
  refine ⟨hiff, ?_⟩
  intro hfits
  apply hiff.mpr
  intro hdiff
  exact hdiff.not_fits hsome hsome' hfits

def oneBackendPath : RemapPath :=
  remapPathAddAddress remapPathDefault (str "10.1.2.3") 80

theorem remapRun_oneBackendPath (path : Str) (hpath : path ≠ str "__trafficserver_alive")
    : ∃ res,
        remapRun plainEnv (pathDb oneBackendPath) (getRequest path) 0 = .ok (.ok, res)
          ∧
        res.rzQuery = none := by
  rw [remapRun.eq_of_selects 0 (selects_pathDb oneBackendPath path)
    (healthcheckMatches_pathDb oneBackendPath path hpath) (rrCheckTls_pathDb _ _ _ rfl)]
  exact ⟨_, rfl, rfl⟩

theorem remapMakeCacheKey_injective_oneBackendPath
    : ∃ res res',
        remapRun plainEnv (pathDb oneBackendPath) (getRequest (str "a")) 0 = .ok (.ok, res)
          ∧
        remapRun plainEnv (pathDb oneBackendPath) (getRequest (str "b")) 0 = .ok (.ok, res')
          ∧
        remapMakeCacheKey (getRequest (str "a")) res ≠ remapMakeCacheKey (getRequest (str "b")) res' := by
  rcases remapRun_oneBackendPath (str "a") (by decide) with ⟨res, hrun, hquery⟩
  rcases remapRun_oneBackendPath (str "b") (by decide) with ⟨res', hrun', hquery'⟩
  refine ⟨res, res', hrun, hrun', ?_⟩
  intro hkey
  have hfits : FitsCacheKey (getRequest (str "a")) res ∧ FitsCacheKey (getRequest (str "b")) res' := by
    unfold FitsCacheKey
    rw [hquery, hquery']
    decide
  have hsame := (remapMakeCacheKey_injective_iff plainEnv (pathDb oneBackendPath) (pathDb oneBackendPath) _ _ 0 0 res
    res'
    hrun hrun').2 hfits hkey
  exact absurd hsame.2.2.1 (by decide)

-- A path of 2^16 bytes has the key of the empty path.
theorem not_remapMakeCacheKey_injective
    : ¬ ∀ (env : Env) (db : RemapDb) (req req' : RemapRequest) (rnd rnd' : Nat)
        (res res' : RemapResult),
        remapRun env db req rnd = .ok (.ok, res) →
        remapRun env db req' rnd' = .ok (.ok, res') →
        remapMakeCacheKey req res = remapMakeCacheKey req' res' →
        SameCacheFields req res req' res' := by
  intro h
  have hlong : ∀ n : Nat, List.replicate (n + 1) (97 : UInt8) ≠ str "__trafficserver_alive" := by
    intro n heq
    rw [List.replicate_succ] at heq
    exact absurd (List.cons.inj heq).1 (by decide)
  rcases remapRun_oneBackendPath [] (by decide) with ⟨res, hrun, hquery⟩
  -- the length stays a variable, so that nothing unfolds the long path
  have hex : ∃ n, (n + 1) % 256 ^ 2 = 0 := ⟨65535, rfl⟩
  rcases hex with ⟨n, hn⟩
  rcases remapRun_oneBackendPath _ (hlong n) with ⟨res', hrun', hquery'⟩
  have hproto : str "http" ∈ [str "http", str "https", str "ws", str "wss"] := by
    simp
  have hkey : remapMakeCacheKey (getRequest []) res
      = remapMakeCacheKey (getRequest (List.replicate (n + 1) 97)) res' := by
    rw [remapMakeCacheKey_eq_iff hproto hproto rfl rfl, hquery, hquery']
    refine ⟨rfl, Agree.refl _ _, ?_, Agree.refl _ _⟩
    unfold getRequest Agree kept
    simp only [Option.getD_some, List.length_replicate, hn, List.take_zero, List.take_nil,
      List.length_nil, Nat.zero_mod, and_self]
  have hsame := h plainEnv (pathDb oneBackendPath) _ _ 0 0 res res' hrun hrun' hkey
  have hpath := hsame.2.2.1
  simp [getRequest] at hpath
