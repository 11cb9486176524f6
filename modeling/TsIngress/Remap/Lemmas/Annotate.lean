import TsIngress.Remap.Impl.Path
import TsIngress.BasicLemmas
import TsIngress.Lib.ExceptFold

/-!
This module contains what the annotations of an Ingress leave in the settings of a path that have to
do with authentication.
-/

def authTypeOf (current : RemapAuthType) (value : Str) : RemapAuthType :=
  if value = str "basic" then
    .basic
  else if value = str "digest" then
    .digest
  else
    current

def authSatisfyOf (value : Str) : RemapSatisfy :=
  if value = str "any" then .any else .all

def passwordLines (se : Secret) : List Str :=
  match hashGet se.seData (str "auth") with
  | none => []
  | some authdata =>
    if (base64Decode authdata).1 = -1 then
      []
    else
      strsep (str "\r\n") (cstr (base64Decode authdata).2)

-- A line that names a user and has no password.
def EmptyPassword (line : Str) : Prop :=
  ∃ user rest, strcut 58 line = some (user, rest) ∧ (rest = [] ∨ rest.head? = some 58)

theorem remapPathAddUsers_eq (users : Hash Str) (se : Secret)
    : remapPathAddUsers users se = (passwordLines se).foldlM remapPathAddUser users := by
  unfold remapPathAddUsers passwordLines
  cases hashGet se.seData (str "auth") with
  | none => rfl
  | some authdata =>
    dsimp only
    split
    . rfl
    . rfl

theorem notMem_passwordLines {se : Secret} {line : Str} (h : line ∈ passwordLines se)
    : ∀ c ∈ line, ¬ (c = 13 ∨ c = 10) := by
  unfold passwordLines at h
  split at h
  . cases h
  . split at h
    . cases h
    . intro c hc hor
      apply notMem_delim_of_mem_strsep h c hc
      rcases hor with rfl | rfl
      . decide
      . decide

theorem stripNewlines_returns_iff {password : Str} (h : ∀ c ∈ password, ¬ (c = 13 ∨ c = 10))
    : Except.Returns (stripNewlines password) ↔ password ≠ [] := by
  unfold stripNewlines
  have hrev : ∀ c ∈ password.reverse, ¬ (c = 13 ∨ c = 10) := by
    simpa using h
  rw [← List.reverse_ne_nil_iff]
  generalize password.reverse = rev at hrev ⊢
  cases rev with
  | nil => simp [stripNewlines.go, Except.Returns]
  | cons c rest =>
    rw [stripNewlines.go, if_neg (hrev c List.mem_cons_self)]
    simp [Except.Returns.ok]

def passwordField (line : Str) : Option (Str × Str) :=
  (strcut 58 line).map fun cut => (cut.1, ((strcut 58 cut.2).map Prod.fst).getD cut.2)

theorem remapPathAddUser_eq (users : Hash Str) (line : Str)
    : remapPathAddUser users line
        =
      match passwordField line with
      | none => .ok users
      | some (user, password) => do
        let password ← stripNewlines password
        return hashSet users user password := by
  unfold remapPathAddUser passwordField
  cases strcut 58 line with
  | none => rfl
  | some cut => rfl

theorem emptyPassword_iff (line : Str) : EmptyPassword line ↔ ∃ user, passwordField line = some (user, []) := by
  have hpassword : ∀ rest : Str, ((strcut 58 rest).map Prod.fst).getD rest = rest.takeWhile (· ≠ 58) := by
    intro rest
    unfold strcut
    split
    . rfl
    . next hnot =>
      symm
      exact takeWhile_of_notMem hnot
  have hempty : ∀ rest : Str, rest.takeWhile (· ≠ 58) = [] ↔ rest = [] ∨ rest.head? = some 58 := by
    intro rest
    cases rest with
    | nil => simp
    | cons c rest => simp [List.takeWhile_cons]
  unfold EmptyPassword passwordField
  constructor
  . rintro ⟨user, rest, hcut, hnone⟩
    refine ⟨user, ?_⟩
    rw [hcut, Option.map_some, hpassword, (hempty rest).mpr hnone]
  . rintro ⟨user, hfield⟩
    rw [Option.map_eq_some_iff] at hfield
    rcases hfield with ⟨⟨user', rest⟩, hcut, heq⟩
    rw [hpassword, Prod.mk.injEq] at heq
    exact ⟨user', rest, hcut, (hempty rest).mp heq.2⟩

def secretWithoutPassword : Secret where
  seName := str "users"
  seNamespace := str "default"
  seType := str "Opaque"
  seData := hashSet (hashNew 127) (str "auth") (str "eDo=")

theorem passwordLines_secretWithoutPassword : passwordLines secretWithoutPassword = [str "x:"] := by
  have hauth : hashGet secretWithoutPassword.seData (str "auth") = some (str "eDo=") := by
    unfold secretWithoutPassword
    exact ChainTable.get_set_self _ _ _
  unfold passwordLines
  rw [hauth]
  decide

theorem mem_of_mem_passwordField {line user password : Str} (h : passwordField line = some (user, password))
    : ∀ c ∈ password, c ∈ line := by
  unfold passwordField at h
  rw [Option.map_eq_some_iff] at h
  rcases h with ⟨⟨user', rest⟩, hcut, heq⟩
  rw [Prod.mk.injEq] at heq
  intro c hc
  have hrest : c ∈ rest := by
    rw [← heq.2] at hc
    unfold strcut at hc
    split at hc
    . exact List.takeWhile_subset _ hc
    . exact hc
  rw [(strcut_eq_some_iff 58 line user' rest).mp hcut |>.1]
  simp [hrest]

theorem remapPathAddUser_returns_iff (users : Hash Str) {line : Str}
    (hline : ∀ c ∈ line, ¬ (c = 13 ∨ c = 10))
    : Except.Returns (remapPathAddUser users line) ↔ ¬ EmptyPassword line := by
  rw [remapPathAddUser_eq, emptyPassword_iff]
  cases hfield : passwordField line with
  | none => simp [Except.Returns.ok]
  | some field =>
    rcases field with ⟨user, password⟩
    have hends : Except.Returns (stripNewlines password) ↔ password ≠ [] := by
      apply stripNewlines_returns_iff
      intro c hc
      apply hline
      exact mem_of_mem_passwordField hfield c hc
    dsimp only
    rw [Except.returns_bind_iff]
    constructor
    . rintro ⟨password, hok, -⟩ ⟨_, heq⟩
      cases heq
      exact hends.mp ⟨password, hok⟩ rfl
    . intro hnot
      have hne : password ≠ [] := by
        rintro rfl
        exact hnot ⟨user, rfl⟩
      rcases hends.mpr hne with ⟨password, hok⟩
      exact ⟨password, hok, Except.Returns.ok _⟩

theorem remapPathAddUsers_returns_iff (users : Hash Str) (se : Secret)
    : Except.Returns (remapPathAddUsers users se) ↔ ∀ line ∈ passwordLines se, ¬ EmptyPassword line := by
  rw [remapPathAddUsers_eq]
  apply ExceptFold.foldlM_returns_iff
  intro users line hline
  exact remapPathAddUser_returns_iff users (notMem_passwordLines hline)

def plainAnnotations : List Str := [
  inCacheEnable,
  inCacheGeneration,
  inCacheIgnoreParams,
  inCacheWhitelistParams,
  inCacheIgnoreCookies,
  inCacheWhitelistCookies,
  inCompressTypes,
  inCompressEnable,
  inFollowRedirects,
  inServerPush,
  inSecureBackends,
  inDebugLog,
  inSslRedirect,
  inForceSslRedirect,
  inPreserveHost,
  inAppRoot,
  inRewriteTarget,
  inReadResponseTimeout,
  inEnableCors,
  inCorsOrigins,
  inCorsMaxAge,
  inCorsHeaders,
  inCorsMethods,
  inCorsCredentials]

def authAnnotations : List Str :=
  [inAuthType, inAuthRealm, inAuthSecret, inAuthSatisfy, inWhitelistSourceRange]

theorem annotations_nodup : (plainAnnotations ++ authAnnotations).Nodup := by
  decide +kernel

theorem authAnnotations_disjoint : ∀ key ∈ authAnnotations, key ∉ plainAnnotations := by
  intro key hauth hplain
  exact (List.nodup_append.mp annotations_nodup).2.2 key hplain key hauth rfl

theorem authAnnotations_nodup : authAnnotations.Nodup := by
  exact (List.nodup_append.mp annotations_nodup).2.1

theorem ne_of_mem_take_plainAnnotations {key : Str} {n : Nat} (h : plainAnnotations[n]? = some key)
    : ∀ key' ∈ plainAnnotations.take n, key ≠ key' := by
  have hnodup := (List.nodup_append.mp annotations_nodup).1
  rintro _ hmem rfl
  rcases List.getElem?_eq_some_iff.mp h with ⟨hn, hkey⟩
  rcases List.mem_take_iff_getElem.mp hmem with ⟨i, hi, heq⟩
  have hindex := hnodup.getElem_inj_iff.mp (heq.trans hkey.symm)
  omega

def SameRoute (rp rp' : RemapPath) : Prop :=
  rp'.rpRegex = rp.rpRegex ∧ rp'.rpAddrs = rp.rpAddrs

namespace remapPathAnnotateOne

def SameAuth (rp rp' : RemapPath) : Prop :=
  rp'.rpAuthAddrList = rp.rpAuthAddrList
    ∧
  rp'.rpAuthType = rp.rpAuthType
    ∧
  rp'.rpAuthSatisfy = rp.rpAuthSatisfy

def auth (env : Env) (ns : Namespace) (rp : RemapPath) (key value : Str) : Result RemapPath :=
  if key = inAuthType then
    .ok { rp with rpAuthType := authTypeOf rp.rpAuthType value }
  else if key = inAuthRealm then
    .ok { rp with rpAuthRealm := some value }
  else if key = inAuthSecret then
    match namespaceGetSecret ns value with
    | none => .ok rp
    | some se => do
      let users ← remapPathAddUsers (hashNew 127) se
      return { rp with rpUsers := some users }
  else if key = inAuthSatisfy then
    .ok { rp with rpAuthSatisfy := authSatisfyOf value }
  else if key = inWhitelistSourceRange then
    .ok { rp with rpAuthAddrList := remapPathGetAddresses env value }
  else
    .ok rp

def Cases (env : Env) (ns : Namespace) (rp : RemapPath) (key value : Str) (x : Result RemapPath) : Prop :=
  (key ∈ plainAnnotations
    ∧ ∃ rp', x = .ok rp' ∧ SameRoute rp rp' ∧ SameAuth rp rp' ∧ rp'.rpAuthRealm = rp.rpAuthRealm)
    ∨
  x = auth env ns rp key value

theorem cases (env : Env) (ns : Namespace) (rp : RemapPath) (key value : Str)
    : Cases env ns rp key value (remapPathAnnotateOne env ns rp key value) := by
  have hplain : ∀ rp', key ∈ plainAnnotations →
      SameRoute rp rp' ∧ SameAuth rp rp' ∧ rp'.rpAuthRealm = rp.rpAuthRealm →
      Cases env ns rp key value (.ok rp') := by
    intro rp' hkey hsame
    exact .inl ⟨hkey, rp', rfl, hsame⟩
  unfold remapPathAnnotateOne
  iterate 16
    refine iteInduction (motive := Cases env ns rp key value) (fun hkey => ?_) (fun _ => ?_)
    . apply hplain
      . rw [hkey]
        simp [plainAnnotations]
      . exact ⟨⟨rfl, rfl⟩, ⟨rfl, rfl, rfl⟩, rfl⟩
  refine iteInduction (motive := Cases env ns rp key value) (fun hkey => ?_) (fun _ => ?_)
  . apply hplain
    . rw [hkey.1]
      simp [plainAnnotations]
    . exact ⟨⟨rfl, rfl⟩, ⟨rfl, rfl, rfl⟩, rfl⟩
  iterate 7
    refine iteInduction (motive := Cases env ns rp key value) (fun hkey => ?_) (fun _ => ?_)
    . apply hplain
      . rw [hkey]
        simp [plainAnnotations]
      . exact ⟨⟨rfl, rfl⟩, ⟨rfl, rfl, rfl⟩, rfl⟩
  right
  unfold auth authTypeOf authSatisfyOf
  congr 1
  . split
    . rfl
    . split
      . rfl
      . rfl
  . congr 3
    split
    . rfl
    . rfl

theorem ne_of_plain {key key' : Str} (hkey : key ∈ plainAnnotations) (hkey' : key' ∈ authAnnotations)
    : key ≠ key' := by
  rintro rfl
  exact authAnnotations_disjoint key hkey' hkey

theorem eq_auth (env : Env) (ns : Namespace) (rp : RemapPath) {key : Str} (hkey : key ∈ authAnnotations)
    (value : Str)
    : remapPathAnnotateOne env ns rp key value = auth env ns rp key value := by
  rcases cases env ns rp key value with ⟨hplain, -⟩ | heq
  . exact absurd rfl (ne_of_plain hplain hkey)
  . exact heq

theorem whitelistSourceRange (env : Env) (ns : Namespace) (rp : RemapPath) (value : Str)
    : remapPathAnnotateOne env ns rp inWhitelistSourceRange value
        =
      .ok { rp with rpAuthAddrList := remapPathGetAddresses env value } := by
  have hnodup := authAnnotations_nodup
  simp only [authAnnotations, List.nodup_cons, List.mem_cons, not_or] at hnodup
  rw [eq_auth env ns rp (by simp [authAnnotations])]
  unfold auth
  simp [Ne.symm, hnodup]

theorem proj_of_ok {env : Env} {ns : Namespace} {rp rp' : RemapPath} {e : Str × Str}
    (h : remapPathAnnotateOne env ns rp e.1 e.2 = .ok rp')
    : SameRoute rp rp'
        ∧
      rp'.rpAuthAddrList
          = (if e.1 = inWhitelistSourceRange then remapPathGetAddresses env e.2 else rp.rpAuthAddrList)
        ∧
      rp'.rpAuthType = (if e.1 = inAuthType then authTypeOf rp.rpAuthType e.2 else rp.rpAuthType)
        ∧
      rp'.rpAuthSatisfy = (if e.1 = inAuthSatisfy then authSatisfyOf e.2 else rp.rpAuthSatisfy)
        ∧
      rp'.rpAuthRealm = (if e.1 = inAuthRealm then some e.2 else rp.rpAuthRealm) := by
  rcases e with ⟨key, value⟩
  rcases cases env ns rp key value with ⟨hplain, rp'', heq, hroute, ⟨hlist, htype, hsatisfy⟩, hrealm⟩ | heq
  . have hne : ∀ key' ∈ authAnnotations, key ≠ key' := by
      intro key' hkey'
      exact ne_of_plain hplain hkey'
    rw [h] at heq
    cases heq
    simp only [authAnnotations, List.forall_mem_cons] at hne
    simp [hne, hroute, hlist, htype, hsatisfy, hrealm]
  . have hnodup := authAnnotations_nodup
    simp only [authAnnotations, List.nodup_cons, List.mem_cons, not_or] at hnodup
    rw [heq] at h
    unfold auth at h
    split at h
    . next hkey =>
      subst hkey
      cases h
      simp [SameRoute, hnodup]
    next htype =>
    split at h
    . next hkey =>
      subst hkey
      cases h
      simp [SameRoute, htype, hnodup]
    next hrealm =>
    split at h
    . next hkey =>
      subst hkey
      have husers : ∃ users, rp' = { rp with rpUsers := users } := by
        cases hse : namespaceGetSecret ns value with
        | none =>
          rw [hse] at h
          cases h
          exact ⟨_, rfl⟩
        | some se =>
          rw [hse, Except.bind_eq_ok_iff] at h
          rcases h with ⟨users, -, h⟩
          cases h
          exact ⟨_, rfl⟩
      rcases husers with ⟨users, rfl⟩
      simp [SameRoute, htype, hrealm, hnodup]
    split at h
    . next hkey =>
      subst hkey
      cases h
      simp [SameRoute, htype, hrealm, hnodup]
    next hsatisfy =>
    split at h
    . next hkey =>
      subst hkey
      cases h
      simp [SameRoute, htype, hrealm, hsatisfy]
    . next hlist =>
      cases h
      simp [SameRoute, htype, hrealm, hsatisfy, hlist]

theorem returns_iff (env : Env) (ns : Namespace) (rp : RemapPath) (key value : Str)
    : Except.Returns (remapPathAnnotateOne env ns rp key value)
        ↔
      (key = inAuthSecret → ∀ se, namespaceGetSecret ns value = some se →
        ∀ line ∈ passwordLines se, ¬ EmptyPassword line) := by
  have hnodup := authAnnotations_nodup
  simp only [authAnnotations, List.nodup_cons, List.mem_cons, not_or] at hnodup
  by_cases hkey : key = inAuthSecret
  . subst hkey
    rw [eq_auth env ns rp (by simp [authAnnotations])]
    unfold auth
    rw [if_neg (Ne.symm hnodup.1.2.1), if_neg (Ne.symm hnodup.2.1.1), if_pos rfl]
    cases namespaceGetSecret ns value with
    | none => simp [Except.Returns.ok]
    | some se =>
      rw [Except.returns_bind_iff]
      simp [← remapPathAddUsers_returns_iff (hashNew 127), Except.Returns]
  . simp only [hkey, false_implies, iff_true]
    rcases cases env ns rp key value with ⟨-, rp', heq, -⟩ | heq
    . exact ⟨rp', heq⟩
    . rw [heq]
      unfold auth
      rw [if_neg hkey]
      iterate 4
        refine Except.Returns.ite (fun _ => Except.Returns.ok _) (fun _ => ?_)
      exact Except.Returns.ok _

end remapPathAnnotateOne

theorem remapPathAnnotate_auth {env : Env} {ns : Namespace} {rp rp' : RemapPath}
    {annotations : Hash Str} (hkeys : annotations.UniqueKeys)
    (h : remapPathAnnotate env ns rp annotations = .ok rp')
    : rp'.rpAuthAddrList
          = ((hashGet annotations inWhitelistSourceRange).map (remapPathGetAddresses env)).getD
              rp.rpAuthAddrList
        ∧
      rp'.rpAuthType = ((hashGet annotations inAuthType).map (authTypeOf rp.rpAuthType)).getD rp.rpAuthType
        ∧
      rp'.rpAuthSatisfy = ((hashGet annotations inAuthSatisfy).map authSatisfyOf).getD rp.rpAuthSatisfy
        ∧
      rp'.rpAuthRealm = ((hashGet annotations inAuthRealm).map some).getD rp.rpAuthRealm := by
  unfold remapPathAnnotate at h
  simp only [hashGet, ChainTable.get_eq_find?, Option.map_map]
  refine ⟨?_, ?_, ?_, ?_⟩
  . exact ExceptFold.foldlM_proj (g := fun rp => rp.rpAuthAddrList)
      (u := fun _ value => remapPathGetAddresses env value)
      (fun rp e rp' h => (remapPathAnnotateOne.proj_of_ok h).2.1) hkeys h
  . exact ExceptFold.foldlM_proj (g := fun rp => rp.rpAuthType)
      (fun rp e rp' h => (remapPathAnnotateOne.proj_of_ok h).2.2.1) hkeys h
  . exact ExceptFold.foldlM_proj (g := fun rp => rp.rpAuthSatisfy) (u := fun _ value => authSatisfyOf value)
      (fun rp e rp' h => (remapPathAnnotateOne.proj_of_ok h).2.2.2.1) hkeys h
  . exact ExceptFold.foldlM_proj (g := fun rp => rp.rpAuthRealm) (u := fun _ value => some value)
      (fun rp e rp' h => (remapPathAnnotateOne.proj_of_ok h).2.2.2.2) hkeys h

theorem remapPathAnnotate_sameRoute {env : Env} {ns : Namespace} {rp rp' : RemapPath}
    {annotations : Hash Str} (h : remapPathAnnotate env ns rp annotations = .ok rp')
    : SameRoute rp rp' := by
  unfold remapPathAnnotate at h
  apply ExceptFold.foldlM_invariant (P := SameRoute rp) _ ⟨rfl, rfl⟩ h
  intro rp1 e rp2 _ h1 hstep
  have h2 := (remapPathAnnotateOne.proj_of_ok hstep).1
  exact ⟨h2.1.trans h1.1, h2.2.trans h1.2⟩

theorem remapPathAnnotate_returns_iff (env : Env) (ns : Namespace) (rp : RemapPath) (annotations : Hash Str)
    : Except.Returns (remapPathAnnotate env ns rp annotations)
        ↔
      ∀ e ∈ annotations.entries, e.1 = inAuthSecret → ∀ se, namespaceGetSecret ns e.2 = some se →
        ∀ line ∈ passwordLines se, ¬ EmptyPassword line := by
  unfold remapPathAnnotate
  apply ExceptFold.foldlM_returns_iff
  intro rp e _
  apply remapPathAnnotateOne.returns_iff

theorem remapPathNew_eq_some {env : Env} {path : Option Str} {rp : RemapPath}
    (h : remapPathNew env path = some rp)
    : rp = { remapPathDefault with rpRegex := path.map remapPathPattern }
        ∧
      ∀ p, path = some p → env.regcomp (remapPathPattern p) = true := by
  unfold remapPathNew at h
  split at h
  . cases h
    simp [remapPathDefault]
  . split at h
    . cases h
    . split at h
      . next hcomp =>
        cases h
        simp [hcomp]
      . cases h

theorem remapPathNew_auth {env : Env} {path : Option Str} {rp : RemapPath}
    (h : remapPathNew env path = some rp)
    : rp.rpAuthType = .none ∧ rp.rpAuthSatisfy = .all ∧ rp.rpAuthRealm = none := by
  rw [(remapPathNew_eq_some h).1]
  exact ⟨rfl, rfl, rfl⟩
