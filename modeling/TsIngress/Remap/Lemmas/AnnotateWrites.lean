import TsIngress.Remap.Lemmas.Annotate
import TsIngress.Lib.FieldWrites

/-!
This module contains the annotations of an Ingress as writes to the fields of a path. Each field belongs
to one annotation, and `cors-origins` is the only one that writes a field which is not its own.
-/

namespace RemapPath

inductive Field where
  | regex
  | addrs
  | users
  | cache
  | cacheGen
  | ignoreParams
  | whitelistParams
  | ignoreCookies
  | whitelistCookies
  | followRedirects
  | secureBackends
  | noSslRedirect
  | forceSslRedirect
  | preserveHost
  | appRoot
  | rewriteTarget
  | readTimeout
  | compress
  | serverPush
  | debugLog
  | compressTypes
  | authType
  | authSatisfy
  | authRealm
  | enableCors
  | corsCreds
  | corsOrigins
  | corsMethods
  | corsHeaders
  | corsMaxAge
  | authAddrList
deriving DecidableEq

namespace Field

abbrev type : Field → Type
  | .regex | .appRoot | .rewriteTarget | .authRealm | .corsMethods | .corsHeaders => Option Str
  | .addrs => List RemapTarget
  | .users => Option (Hash Str)
  | .cache | .followRedirects | .secureBackends | .noSslRedirect | .forceSslRedirect |
    .preserveHost | .compress | .serverPush | .debugLog | .enableCors | .corsCreds => Bool
  | .cacheGen | .readTimeout | .corsMaxAge => Int
  | .ignoreParams | .whitelistParams | .ignoreCookies | .whitelistCookies => Option (Hash Unit)
  | .compressTypes | .corsOrigins => Hash Unit
  | .authType => RemapAuthType
  | .authSatisfy => RemapSatisfy
  | .authAddrList => List RemapAuthAddr

def annotation : Field → Option Str
  | .regex => none
  | .addrs => none
  | .users => some inAuthSecret
  | .cache => some inCacheEnable
  | .cacheGen => some inCacheGeneration
  | .ignoreParams => some inCacheIgnoreParams
  | .whitelistParams => some inCacheWhitelistParams
  | .ignoreCookies => some inCacheIgnoreCookies
  | .whitelistCookies => some inCacheWhitelistCookies
  | .followRedirects => some inFollowRedirects
  | .secureBackends => some inSecureBackends
  | .noSslRedirect => some inSslRedirect
  | .forceSslRedirect => some inForceSslRedirect
  | .preserveHost => some inPreserveHost
  | .appRoot => some inAppRoot
  | .rewriteTarget => some inRewriteTarget
  | .readTimeout => some inReadResponseTimeout
  | .compress => some inCompressEnable
  | .serverPush => some inServerPush
  | .debugLog => some inDebugLog
  | .compressTypes => some inCompressTypes
  | .authType => some inAuthType
  | .authSatisfy => some inAuthSatisfy
  | .authRealm => some inAuthRealm
  | .enableCors => some inEnableCors
  | .corsCreds => some inCorsCredentials
  | .corsOrigins => some inCorsOrigins
  | .corsMethods => some inCorsMethods
  | .corsHeaders => some inCorsHeaders
  | .corsMaxAge => some inCorsMaxAge
  | .authAddrList => some inWhitelistSourceRange

end Field

abbrev Write := FieldWrite Field.type

def get (rp : RemapPath) : (f : Field) → f.type
  | .regex => rp.rpRegex
  | .addrs => rp.rpAddrs
  | .users => rp.rpUsers
  | .cache => rp.rpCache
  | .cacheGen => rp.rpCacheGen
  | .ignoreParams => rp.rpIgnoreParams
  | .whitelistParams => rp.rpWhitelistParams
  | .ignoreCookies => rp.rpIgnoreCookies
  | .whitelistCookies => rp.rpWhitelistCookies
  | .followRedirects => rp.rpFollowRedirects
  | .secureBackends => rp.rpSecureBackends
  | .noSslRedirect => rp.rpNoSslRedirect
  | .forceSslRedirect => rp.rpForceSslRedirect
  | .preserveHost => rp.rpPreserveHost
  | .appRoot => rp.rpAppRoot
  | .rewriteTarget => rp.rpRewriteTarget
  | .readTimeout => rp.rpReadTimeout
  | .compress => rp.rpCompress
  | .serverPush => rp.rpServerPush
  | .debugLog => rp.rpDebugLog
  | .compressTypes => rp.rpCompressTypes
  | .authType => rp.rpAuthType
  | .authSatisfy => rp.rpAuthSatisfy
  | .authRealm => rp.rpAuthRealm
  | .enableCors => rp.rpEnableCors
  | .corsCreds => rp.rpCorsCreds
  | .corsOrigins => rp.rpCorsOrigins
  | .corsMethods => rp.rpCorsMethods
  | .corsHeaders => rp.rpCorsHeaders
  | .corsMaxAge => rp.rpCorsMaxAge
  | .authAddrList => rp.rpAuthAddrList

def ofFields (x : (f : Field) → f.type) : RemapPath where
  rpRegex := x .regex
  rpAddrs := x .addrs
  rpUsers := x .users
  rpCache := x .cache
  rpCacheGen := x .cacheGen
  rpIgnoreParams := x .ignoreParams
  rpWhitelistParams := x .whitelistParams
  rpIgnoreCookies := x .ignoreCookies
  rpWhitelistCookies := x .whitelistCookies
  rpFollowRedirects := x .followRedirects
  rpSecureBackends := x .secureBackends
  rpNoSslRedirect := x .noSslRedirect
  rpForceSslRedirect := x .forceSslRedirect
  rpPreserveHost := x .preserveHost
  rpAppRoot := x .appRoot
  rpRewriteTarget := x .rewriteTarget
  rpReadTimeout := x .readTimeout
  rpCompress := x .compress
  rpServerPush := x .serverPush
  rpDebugLog := x .debugLog
  rpCompressTypes := x .compressTypes
  rpAuthType := x .authType
  rpAuthSatisfy := x .authSatisfy
  rpAuthRealm := x .authRealm
  rpEnableCors := x .enableCors
  rpCorsCreds := x .corsCreds
  rpCorsOrigins := x .corsOrigins
  rpCorsMethods := x .corsMethods
  rpCorsHeaders := x .corsHeaders
  rpCorsMaxAge := x .corsMaxAge
  rpAuthAddrList := x .authAddrList

def fields : RemapPath ≃ ((f : Field) → f.type) where
  toFun := get
  invFun := ofFields
  left_inv _ := rfl
  right_inv x := by
    funext f
    cases f <;> rfl

abbrev writeAll (rp : RemapPath) (ws : List Write) : RemapPath :=
  FieldWrite.writeAll fields rp ws

end RemapPath

namespace remapPathAnnotateOne

open RemapPath

-- What an annotation may write: its own field, and `cors-origins` turns CORS on besides.
def MayWrite (key value : Str) : Write → Prop
  | ⟨.enableCors, enable⟩ =>
    (key = inEnableCors ∧ enable = truefalse value) ∨ (key = inCorsOrigins ∧ enable = true)
  | ⟨f, _⟩ => f.annotation = some key

structure Writes (key value : Str) (step : RemapPath → Result RemapPath) (ws : List Write) : Prop where
  step_eq : ∀ rp, step rp = .ok (rp.writeAll ws)
  mayWrite : ∀ w ∈ ws, MayWrite key value w
  nodup : (ws.map Sigma.fst).Nodup

def IsWrites (key value : Str) (step : RemapPath → Result RemapPath) : Prop :=
  ∃ ws, Writes key value step ws

theorem IsWrites.ite {key value : Str} {c : Prop} [Decidable c] {f g : RemapPath → Result RemapPath}
    (hf : c → IsWrites key value f) (hg : ¬ c → IsWrites key value g)
    : IsWrites key value (fun rp => if c then f rp else g rp) := by
  by_cases h : c
  . simp only [h, if_true]
    exact hf h
  . simp only [h, if_false]
    exact hg h

theorem IsWrites.nothing (key value : Str) : IsWrites key value .ok := by
  refine ⟨[], fun rp => rfl, by simp, by simp⟩

theorem IsWrites.one {key value : Str} {step : RemapPath → Result RemapPath} (w : Write)
    (hstep : ∀ rp, step rp = .ok (rp.writeAll [w])) (hw : MayWrite key value w)
    : IsWrites key value step := by
  exact ⟨[w], hstep, by simpa using hw, by simp⟩

theorem mayWrite_iff_of_ne {f : Field} (hf : f ≠ .enableCors) (key value : Str) (v : f.type)
    : MayWrite key value ⟨f, v⟩ ↔ f.annotation = some key := by
  cases f with
  | enableCors => exact absurd rfl hf
  | _ => exact Iff.rfl

theorem mayWrite_own {key value : Str} {f : Field} (hf : f ≠ .enableCors) (h : f.annotation = some key)
    (v : f.type)
    : MayWrite key value ⟨f, v⟩ := by
  rw [mayWrite_iff_of_ne hf]
  exact h

theorem IsWrites.iteOwn {key value key' : Str} {step rest : RemapPath → Result RemapPath} (f : Field)
    {v : f.type} (hf : f ≠ .enableCors) (h : f.annotation = some key')
    (hstep : ∀ rp, step rp = .ok (rp.writeAll [⟨f, v⟩])) (hrest : key ≠ key' → IsWrites key value rest)
    : IsWrites key value (fun rp => if key = key' then step rp else rest rp) := by
  refine IsWrites.ite ?_ hrest
  rintro rfl
  exact .one ⟨f, v⟩ hstep (mayWrite_own hf h v)

theorem isWrites (env : Env) {ns : Namespace} {key value : Str}
    (h : key = inAuthSecret → ∀ se, namespaceGetSecret ns value = some se →
      ∀ line ∈ passwordLines se, ¬ EmptyPassword line)
    : IsWrites key value (fun rp => remapPathAnnotateOne env ns rp key value) := by
  unfold remapPathAnnotateOne
  refine .iteOwn .cache (by decide) rfl (fun rp => rfl) (fun _ => ?_)
  refine .iteOwn .cacheGen (by decide) rfl (fun rp => rfl) (fun _ => ?_)
  refine .iteOwn .ignoreParams (by decide) rfl (fun rp => rfl) (fun _ => ?_)
  refine .iteOwn .whitelistParams (by decide) rfl (fun rp => rfl) (fun _ => ?_)
  refine .iteOwn .ignoreCookies (by decide) rfl (fun rp => rfl) (fun _ => ?_)
  refine .iteOwn .whitelistCookies (by decide) rfl (fun rp => rfl) (fun _ => ?_)
  refine .iteOwn .compressTypes (by decide) rfl (fun rp => rfl) (fun _ => ?_)
  refine .iteOwn .compress (by decide) rfl (fun rp => rfl) (fun _ => ?_)
  refine .iteOwn .followRedirects (by decide) rfl (fun rp => rfl) (fun _ => ?_)
  refine .iteOwn .serverPush (by decide) rfl (fun rp => rfl) (fun _ => ?_)
  refine .iteOwn .secureBackends (by decide) rfl (fun rp => rfl) (fun _ => ?_)
  refine .iteOwn .debugLog (by decide) rfl (fun rp => rfl) (fun _ => ?_)
  refine .iteOwn .noSslRedirect (by decide) rfl (fun rp => rfl) (fun _ => ?_)
  refine .iteOwn .forceSslRedirect (by decide) rfl (fun rp => rfl) (fun _ => ?_)
  refine .iteOwn .preserveHost (by decide) rfl (fun rp => rfl) (fun _ => ?_)
  refine .iteOwn .appRoot (by decide) rfl (fun rp => rfl) (fun _ => ?_)
  refine .ite (fun hkey => ?_) (fun _ => ?_)
  . rw [hkey.1]
    exact .one ⟨.rewriteTarget, _⟩ (fun rp => rfl) (mayWrite_own (by decide) rfl _)
  refine .iteOwn .readTimeout (by decide) rfl (fun rp => rfl) (fun _ => ?_)
  refine .ite (fun hkey => ?_) (fun _ => ?_)
  . exact .one ⟨.enableCors, _⟩ (fun rp => rfl) (.inl ⟨hkey, rfl⟩)
  refine .ite (fun hkey => ?_) (fun _ => ?_)
  . rw [hkey]
    refine ⟨[⟨.corsOrigins, _⟩, ⟨.enableCors, true⟩], fun rp => rfl, ?_, by simp⟩
    rw [List.forall_mem_cons, List.forall_mem_singleton]
    exact ⟨mayWrite_own (by decide) rfl _, .inr ⟨rfl, rfl⟩⟩
  refine .iteOwn .corsMaxAge (by decide) rfl (fun rp => rfl) (fun _ => ?_)
  refine .iteOwn .corsHeaders (by decide) rfl (fun rp => rfl) (fun _ => ?_)
  refine .iteOwn .corsMethods (by decide) rfl (fun rp => rfl) (fun _ => ?_)
  refine .iteOwn .corsCreds (by decide) rfl (fun rp => rfl) (fun _ => ?_)
  refine .ite (fun hkey => ?_) (fun _ => ?_)
  . rw [hkey]
    refine .ite (fun _ => .one ⟨.authType, _⟩ (fun rp => rfl) (mayWrite_own (by decide) rfl _)) (fun _ => ?_)
    refine .ite (fun _ => .one ⟨.authType, _⟩ (fun rp => rfl) (mayWrite_own (by decide) rfl _)) (fun _ => ?_)
    exact .nothing _ _
  refine .iteOwn .authRealm (by decide) rfl (fun rp => rfl) (fun _ => ?_)
  refine .ite (fun hkey => ?_) (fun _ => ?_)
  . cases hse : namespaceGetSecret ns value with
    | none => exact .nothing _ _
    | some se =>
      have hreturns := (remapPathAddUsers_returns_iff (hashNew 127) se).mpr (h hkey se hse)
      rcases hreturns with ⟨users, husers⟩
      simp only [husers, Except.ok_bind]
      rw [hkey]
      exact .one ⟨.users, some users⟩ (fun rp => rfl) (mayWrite_own (by decide) rfl _)
  refine .ite (fun hkey => ?_) (fun _ => ?_)
  . rw [hkey]
    refine .ite (fun _ => .one ⟨.authSatisfy, _⟩ (fun rp => rfl) (mayWrite_own (by decide) rfl _)) (fun _ => ?_)
    exact .one ⟨.authSatisfy, _⟩ (fun rp => rfl) (mayWrite_own (by decide) rfl _)
  refine .iteOwn .authAddrList (by decide) rfl (fun rp => rfl) (fun _ => ?_)
  exact .nothing _ _

theorem enableCors (env : Env) (ns : Namespace) (rp : RemapPath) (value : Str)
    : remapPathAnnotateOne env ns rp inEnableCors value
        =
      .ok { rp with rpEnableCors := truefalse value } := by
  have hne : ∀ key ∈ plainAnnotations.take 18, inEnableCors ≠ key := ne_of_mem_take_plainAnnotations rfl
  simp only [plainAnnotations, List.take_succ_cons, List.take_zero, List.forall_mem_cons] at hne
  unfold remapPathAnnotateOne
  simp only [hne, false_and, ↓reduceIte]

theorem corsOrigins (env : Env) (ns : Namespace) (rp : RemapPath) (value : Str)
    : remapPathAnnotateOne env ns rp inCorsOrigins value
        =
      .ok { rp with
        rpCorsOrigins := hashOfWords 1 (strtok (str " \t\r\n") value), rpEnableCors := true } := by
  have hne : ∀ key ∈ plainAnnotations.take 19, inCorsOrigins ≠ key := ne_of_mem_take_plainAnnotations rfl
  simp only [plainAnnotations, List.take_succ_cons, List.take_zero, List.forall_mem_cons] at hne
  unfold remapPathAnnotateOne
  simp only [hne, false_and, ↓reduceIte]

theorem corsCredentials (env : Env) (ns : Namespace) (rp : RemapPath) (value : Str)
    : remapPathAnnotateOne env ns rp inCorsCredentials value
        =
      .ok { rp with rpCorsCreds := truefalse value } := by
  have hne : ∀ key ∈ plainAnnotations.take 23, inCorsCredentials ≠ key := ne_of_mem_take_plainAnnotations rfl
  simp only [plainAnnotations, List.take_succ_cons, List.take_zero, List.forall_mem_cons] at hne
  unfold remapPathAnnotateOne
  simp only [hne, false_and, ↓reduceIte]

theorem get_of_ok {env : Env} {ns : Namespace} {rp rp' : RemapPath} {key value : Str}
    (h : remapPathAnnotateOne env ns rp key value = .ok rp') {f : Field}
    (hf : ∀ v, ¬ MayWrite key value ⟨f, v⟩)
    : rp'.get f = rp.get f := by
  have hreturns := (returns_iff env ns rp key value).mp ⟨rp', h⟩
  rcases isWrites env hreturns with ⟨ws, hws⟩
  have heq := hws.step_eq rp
  rw [h] at heq
  cases heq
  apply FieldWrite.view_writeAll_of_ne fields
  rintro ⟨f', v⟩ hw rfl
  exact hf v (hws.mayWrite _ hw)

theorem get_of_ok_of_ne {env : Env} {ns : Namespace} {rp rp' : RemapPath} {key value : Str}
    (h : remapPathAnnotateOne env ns rp key value = .ok rp') {f : Field} (hf : f ≠ .enableCors)
    (hkey : f.annotation ≠ some key)
    : rp'.get f = rp.get f := by
  apply get_of_ok h
  intro v
  rw [mayWrite_iff_of_ne hf]
  exact hkey

end remapPathAnnotateOne
