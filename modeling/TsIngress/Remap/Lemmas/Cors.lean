import TsIngress.Remap.Lemmas.AnnotateWrites
import TsIngress.Remap.Lemmas.Run
import TsIngress.Api.Lemmas.AccessText

/-!
This module contains the CORS header fields of a response against the annotations of the Ingress and the
Origin header field of the request.
-/

def corsSwitch (e : Str × Str) : Option Bool :=
  if e.1 = inEnableCors then
    some (truefalse e.2)
  else if e.1 = inCorsOrigins then
    some true
  else
    none

def corsOriginList (e : Str × Str) : Option (List Str) :=
  if e.1 = inCorsOrigins then some (strtok (str " \t\r\n") e.2) else none

def corsCredentialsSwitch (e : Str × Str) : Option Bool :=
  if e.1 = inCorsCredentials then some (truefalse e.2) else none

def corsEnabled (annotations : Hash Str) : Bool :=
  (annotations.entries.filterMap corsSwitch).getLast?.getD false

def corsOrigins (annotations : Hash Str) : List Str :=
  (annotations.entries.filterMap corsOriginList).getLast?.getD [str "*"]

def corsCredentials (annotations : Hash Str) : Bool :=
  (annotations.entries.filterMap corsCredentialsSwitch).getLast?.getD false

def SoleOrigin (req : RemapRequest) (origin : Str) : Prop :=
  ∃ hdr, hashGet req.rrHdrfields (str "origin") = some hdr ∧ hdr.rhValues = [origin]

def allowOrigin : Str := str "Access-Control-Allow-Origin"

def allowCredentials : Str := str "Access-Control-Allow-Credentials"

-- The header fields of a response say what the annotations allow the origin of the request.
structure CorsConsistent (annotations : Hash Str) (req : RemapRequest) (headers : Hash Str) : Prop where
  allowOrigin_iff : (∃ value, hashGet headers allowOrigin = some value) ↔
    corsEnabled annotations = true ∧ ∃ origin, SoleOrigin req origin ∧
      (str "*" ∈ corsOrigins annotations ∨ origin ∈ corsOrigins annotations)
  allowOrigin_value : ∀ value, hashGet headers allowOrigin = some value →
    (value = str "*" ∧ str "*" ∈ corsOrigins annotations)
      ∨
    (value ≠ str "*" ∧ SoleOrigin req value ∧ hashGet headers (str "Vary") = some (str "Origin"))
  others : ∀ name value, hashGet headers name = some value → str "Access-Control-" <+: name →
    ∃ value, hashGet headers allowOrigin = some value
  credentials : ¬ (hashGet headers allowCredentials = some (str "true")
    ∧ hashGet headers allowOrigin = some (str "*"))

structure CorsConfigured (annotations : Hash Str) (rp : RemapPath) : Prop where
  enabled : rp.rpEnableCors = corsEnabled annotations
  origins : ∀ origin, hashPresent rp.rpCorsOrigins origin = true ↔ origin ∈ corsOrigins annotations
  credentials : rp.rpCorsCreds = corsCredentials annotations

section Annotate

variable {env : Env} {ns : Namespace}

theorem rpEnableCors_of_step {rp rp' : RemapPath} {e : Str × Str}
    (h : remapPathAnnotateOne env ns rp e.1 e.2 = .ok rp')
    : rp'.rpEnableCors = (corsSwitch e).getD rp.rpEnableCors := by
  rcases e with ⟨key, value⟩
  unfold corsSwitch
  by_cases henable : key = inEnableCors
  . subst henable
    rw [remapPathAnnotateOne.enableCors] at h
    cases h
    rw [if_pos rfl, Option.getD_some]
  . rw [if_neg henable]
    by_cases horigins : key = inCorsOrigins
    . subst horigins
      rw [remapPathAnnotateOne.corsOrigins] at h
      cases h
      rw [if_pos rfl, Option.getD_some]
    . rw [if_neg horigins, Option.getD_none]
      refine remapPathAnnotateOne.get_of_ok h (f := .enableCors) ?_
      rintro v (⟨hkey, -⟩ | ⟨hkey, -⟩)
      . exact henable hkey
      . exact horigins hkey

theorem rpCorsOrigins_of_step {rp rp' : RemapPath} {e : Str × Str}
    (h : remapPathAnnotateOne env ns rp e.1 e.2 = .ok rp')
    : rp'.rpCorsOrigins = ((corsOriginList e).map (hashOfWords 1 ·)).getD rp.rpCorsOrigins := by
  rcases e with ⟨key, value⟩
  unfold corsOriginList
  by_cases horigins : key = inCorsOrigins
  . subst horigins
    rw [remapPathAnnotateOne.corsOrigins] at h
    cases h
    rw [if_pos rfl, Option.map_some, Option.getD_some]
  . rw [if_neg horigins, Option.map_none, Option.getD_none]
    apply remapPathAnnotateOne.get_of_ok_of_ne h (f := .corsOrigins) (by decide)
    intro hkey
    exact horigins (Option.some.inj hkey).symm

theorem rpCorsCreds_of_step {rp rp' : RemapPath} {e : Str × Str}
    (h : remapPathAnnotateOne env ns rp e.1 e.2 = .ok rp')
    : rp'.rpCorsCreds = (corsCredentialsSwitch e).getD rp.rpCorsCreds := by
  rcases e with ⟨key, value⟩
  unfold corsCredentialsSwitch
  by_cases hcreds : key = inCorsCredentials
  . subst hcreds
    rw [remapPathAnnotateOne.corsCredentials] at h
    cases h
    rw [if_pos rfl, Option.getD_some]
  . rw [if_neg hcreds, Option.getD_none]
    apply remapPathAnnotateOne.get_of_ok_of_ne h (f := .corsCreds) (by decide)
    intro hkey
    exact hcreds (Option.some.inj hkey).symm

theorem remapPathNew_cors {path : Option Str} {rp : RemapPath} (h : remapPathNew env path = some rp)
    : rp.rpEnableCors = false ∧ rp.rpCorsOrigins = hashOfWords 127 [str "*"] ∧ rp.rpCorsCreds = false := by
  rw [(remapPathNew_eq_some h).1]
  exact ⟨rfl, rfl, rfl⟩

theorem corsConfigured_of_remapPathAnnotate {path : Option Str} {rp rp' : RemapPath} {annotations : Hash Str}
    (hnew : remapPathNew env path = some rp) (h : remapPathAnnotate env ns rp annotations = .ok rp')
    : CorsConfigured annotations rp' := by
  rcases remapPathNew_cors hnew with ⟨henable, horigins, hcreds⟩
  unfold remapPathAnnotate at h
  refine ⟨?_, ?_, ?_⟩
  . rw [corsEnabled, ← henable]
    exact ExceptFold.foldlM_lastWrite (g := fun rp => rp.rpEnableCors)
      (fun rp e rp' _ h => rpEnableCors_of_step h) h
  . intro origin
    have hlast := ExceptFold.foldlM_lastWrite (g := fun rp => rp.rpCorsOrigins)
      (fun rp e rp' _ h => rpCorsOrigins_of_step h) h
    rw [hlast, horigins, corsOrigins, ← List.map_filterMap, List.getLast?_map]
    cases (annotations.entries.filterMap corsOriginList).getLast? with
    | none => exact hashPresent_hashOfWords_iff 127 [str "*"] origin
    | some words => exact hashPresent_hashOfWords_iff 1 words origin
  . rw [corsCredentials, ← hcreds]
    exact ExceptFold.foldlM_lastWrite (g := fun rp => rp.rpCorsCreds)
      (fun rp e rp' _ h => rpCorsCreds_of_step h) h

end Annotate

theorem hashGet_setHeaderIf_ne (res : RemapResult) {name : String} {key : Str} (hne : key ≠ str name)
    (value : Option Str)
    : hashGet (setHeaderIf res name value).rzHeaders key = hashGet res.rzHeaders key := by
  cases value with
  | none => rfl
  | some value => exact ChainTable.get_set_ne _ _ _ _ hne

namespace rrCheckCors

def allow (rp : RemapPath) (origin : Str) (res : RemapResult) : RemapResult :=
  if hashPresent rp.rpCorsOrigins (str "*") then
    setHeader res "Access-Control-Allow-Origin" (str "*")
  else
    setHeader (setHeader res "Access-Control-Allow-Origin" origin) "Vary" (str "Origin")

def Admits (rp : RemapPath) (req : RemapRequest) (origin : Str) : Prop :=
  rp.rpEnableCors = true
    ∧
  SoleOrigin req origin
    ∧
  (hashPresent rp.rpCorsOrigins (str "*") = true ∨ hashPresent rp.rpCorsOrigins origin = true)

theorem eq_of_admits {rp : RemapPath} {req : RemapRequest} {origin : Str} (h : Admits rp req origin)
    (res : RemapResult)
    : rrCheckCors req rp res = preflight req rp (allow rp origin res) := by
  rcases h with ⟨henable, ⟨hdr, hhdr, hvalues⟩, hallowed⟩
  unfold rrCheckCors allow
  simp only [henable, hhdr, hvalues]
  by_cases hstar : hashPresent rp.rpCorsOrigins (str "*") = true
  . simp [hstar]
  . have horigin := hallowed.resolve_left hstar
    simp [hstar, horigin]

theorem eq_of_not_admits {rp : RemapPath} {req : RemapRequest} (h : ¬ ∃ origin, Admits rp req origin)
    (res : RemapResult)
    : rrCheckCors req rp res = (.ok, res) := by
  unfold rrCheckCors
  split
  . rfl
  . next henable =>
    split
    . rfl
    . next hdr hhdr =>
      split
      . next origin hvalues =>
        have hnot : ¬ (hashPresent rp.rpCorsOrigins (str "*") = true
            ∨ hashPresent rp.rpCorsOrigins origin = true) := by
          intro hallowed
          exact h ⟨origin, by simpa using henable, ⟨hdr, hhdr, hvalues⟩, hallowed⟩
        rw [not_or] at hnot
        rw [if_neg hnot.1, if_neg hnot.2]
      . rfl

theorem hashGet_preflight {key : Str} (req : RemapRequest) (rp : RemapPath) (res : RemapResult)
    (hkey : key ∉ [
      str "Access-Control-Allow-Methods",
      str "Access-Control-Allow-Headers",
      str "Access-Control-Max-Age",
      str "Access-Control-Allow-Credentials"])
    : hashGet (preflight req rp res).2.rzHeaders key = hashGet res.rzHeaders key := by
  simp only [List.mem_cons, List.not_mem_nil, or_false, not_or] at hkey
  rcases hkey with ⟨hmethods, hheaders, hage, hcreds⟩
  unfold preflight
  split
  . rfl
  . dsimp only
    rw [hashGet_setHeaderIf_ne _ hcreds, hashGet_setHeaderIf_ne _ hage, hashGet_setHeaderIf_ne _ hheaders,
      hashGet_setHeaderIf_ne _ hmethods]

theorem hashGet_preflight_credentials (req : RemapRequest) (rp : RemapPath) {res : RemapResult}
    (h : hashGet res.rzHeaders allowCredentials = none)
    : hashGet (preflight req rp res).2.rzHeaders allowCredentials = some (str "true")
        ↔
      req.rrMethod = str "OPTIONS" ∧ rp.rpCorsCreds = true := by
  have hne : ∀ name ∈ ["Access-Control-Allow-Methods", "Access-Control-Allow-Headers", "Access-Control-Max-Age"],
      allowCredentials ≠ str name := by
    decide +kernel
  simp only [List.forall_mem_cons] at hne
  unfold preflight
  by_cases hmethod : req.rrMethod = str "OPTIONS"
  . rw [if_neg (not_not_intro hmethod)]
    cases hcreds : rp.rpCorsCreds with
    | true =>
      simp only [hmethod, if_true, true_and, iff_true]
      exact ChainTable.get_set_self _ _ _
    | false =>
      have hnone : hashGet res.rzHeaders allowCredentials ≠ some (str "true") := by
        rw [h]
        simp
      simp only [Bool.false_eq_true, if_false, and_false, iff_false]
      rw [setHeaderIf, hashGet_setHeaderIf_ne _ hne.2.2.1, hashGet_setHeaderIf_ne _ hne.2.1,
        hashGet_setHeaderIf_ne _ hne.1]
      exact hnone
  . rw [if_pos hmethod]
    simp [hmethod, h]

end rrCheckCors

theorem hashGet_selected (rh : RemapHost) (rp : RemapPath) (key : Str)
    : hashGet (RemapResult.selected rh rp).rzHeaders key = none := by
  exact ChainTable.get_new _ _ _

namespace rrCheckCors

theorem headers_of_admits {rp : RemapPath} {req : RemapRequest} {origin : Str} (h : Admits rp req origin)
    (rh : RemapHost)
    : let headers := (rrCheckCors req rp (.selected rh rp)).2.rzHeaders
      (hashGet headers allowOrigin
          = some (if hashPresent rp.rpCorsOrigins (str "*") then str "*" else origin))
        ∧
      (hashPresent rp.rpCorsOrigins (str "*") = false → hashGet headers (str "Vary") = some (str "Origin"))
        ∧
      (hashGet headers allowCredentials = some (str "true")
        ↔ req.rrMethod = str "OPTIONS" ∧ rp.rpCorsCreds = true) := by
  intro headers
  have hvary : str "Vary" ≠ allowOrigin := by
    decide +kernel
  have hcreds : allowCredentials ≠ allowOrigin ∧ allowCredentials ≠ str "Vary" := by
    decide +kernel
  have hheaders : headers = (preflight req rp (allow rp origin (.selected rh rp))).2.rzHeaders := by
    rw [← eq_of_admits h]
  have hother : hashGet (allow rp origin (.selected rh rp)).rzHeaders allowCredentials = none := by
    unfold allow
    split
    . exact (ChainTable.get_set_ne _ _ _ _ hcreds.1).trans (hashGet_selected rh rp _)
    . exact (ChainTable.get_set_ne _ _ _ _ hcreds.2).trans
        ((ChainTable.get_set_ne _ _ _ _ hcreds.1).trans (hashGet_selected rh rp _))
  rw [hheaders, hashGet_preflight _ _ _ (by decide +kernel), hashGet_preflight _ _ _ (by decide +kernel)]
  refine ⟨?_, ?_, hashGet_preflight_credentials req rp hother⟩
  . unfold allow
    split
    . exact ChainTable.get_set_self _ _ _
    . exact (ChainTable.get_set_ne _ _ _ _ hvary.symm).trans (ChainTable.get_set_self _ _ _)
  . intro hstar
    unfold allow
    rw [hstar, if_neg Bool.false_ne_true]
    exact ChainTable.get_set_self _ _ _

end rrCheckCors

-- The annotations allow credentials from every origin, and the request asks for them.
def AnyOriginCredentials (annotations : Hash Str) (req : RemapRequest) : Prop :=
  corsEnabled annotations = true
    ∧
  corsCredentials annotations = true
    ∧
  str "*" ∈ corsOrigins annotations
    ∧
  req.rrMethod = str "OPTIONS"
    ∧
  ∃ origin, SoleOrigin req origin

namespace CorsConfigured

variable {annotations : Hash Str} {rp : RemapPath} {req : RemapRequest} {origin : Str}

theorem admits_iff (hconf : CorsConfigured annotations rp) (req : RemapRequest) (origin : Str)
    : rrCheckCors.Admits rp req origin
        ↔
      corsEnabled annotations = true
        ∧
      SoleOrigin req origin
        ∧
      (str "*" ∈ corsOrigins annotations ∨ origin ∈ corsOrigins annotations) := by
  rw [rrCheckCors.Admits, hconf.enabled, hconf.origins, hconf.origins]

theorem consistent_of_not_admits (hconf : CorsConfigured annotations rp)
    (h : ¬ ∃ origin, rrCheckCors.Admits rp req origin) (rh : RemapHost)
    : CorsConsistent annotations req (rrCheckCors req rp (.selected rh rp)).2.rzHeaders := by
  rw [rrCheckCors.eq_of_not_admits h]
  have hnone : ∀ key value, hashGet (RemapResult.selected rh rp).rzHeaders key ≠ some value := by
    intro key value
    rw [hashGet_selected]
    simp
  refine ⟨⟨?_, ?_⟩, ?_, ?_, ?_⟩
  . rintro ⟨value, hvalue⟩
    exact absurd hvalue (hnone _ _)
  . rintro ⟨hon, origin, hsole, hallowed⟩
    exact absurd ⟨origin, (hconf.admits_iff req origin).mpr ⟨hon, hsole, hallowed⟩⟩ h
  . intro value hvalue
    exact absurd hvalue (hnone _ _)
  . intro name value hvalue
    exact absurd hvalue (hnone _ _)
  . rintro ⟨hvalue, -⟩
    exact hnone _ _ hvalue

theorem consistent_of_admits (hconf : CorsConfigured annotations rp)
    (h : rrCheckCors.Admits rp req origin) {headers : Hash Str} {value : Str}
    (hallow : hashGet headers allowOrigin = some value)
    (hvalue : (value = str "*" ∧ str "*" ∈ corsOrigins annotations)
      ∨ (value ≠ str "*" ∧ SoleOrigin req value ∧ hashGet headers (str "Vary") = some (str "Origin")))
    (hcreds : hashGet headers allowCredentials = some (str "true") → value ≠ str "*")
    : CorsConsistent annotations req headers := by
  rcases (hconf.admits_iff req origin).mp h with ⟨hon, hsole, hallowed⟩
  have hpresent : ∃ value, hashGet headers allowOrigin = some value := ⟨value, hallow⟩
  refine ⟨⟨fun _ => ⟨hon, origin, hsole, hallowed⟩, fun _ => hpresent⟩, ?_, fun _ _ _ _ => hpresent, ?_⟩
  . intro value' hvalue'
    rw [hallow, Option.some.injEq] at hvalue'
    rw [← hvalue']
    exact hvalue
  . rintro ⟨hcreds', hvalue'⟩
    rw [hallow, Option.some.injEq] at hvalue'
    exact hcreds hcreds' hvalue'

theorem consistent_iff_of_wildcard (hconf : CorsConfigured annotations rp)
    (h : rrCheckCors.Admits rp req origin) (hstar : str "*" ∈ corsOrigins annotations) (rh : RemapHost)
    : CorsConsistent annotations req (rrCheckCors req rp (.selected rh rp)).2.rzHeaders
        ↔
      ¬ (req.rrMethod = str "OPTIONS" ∧ corsCredentials annotations = true) := by
  rcases rrCheckCors.headers_of_admits h rh with ⟨hallow, -, hcreds⟩
  rw [if_pos ((hconf.origins _).mpr hstar)] at hallow
  rw [hconf.credentials] at hcreds
  constructor
  . intro hconsistent hasked
    exact hconsistent.credentials ⟨hcreds.mpr hasked, hallow⟩
  . intro hnot
    apply hconf.consistent_of_admits h hallow (.inl ⟨rfl, hstar⟩)
    intro hcreds'
    exact absurd (hcreds.mp hcreds') hnot

theorem consistent_of_listed (hconf : CorsConfigured annotations rp)
    (h : rrCheckCors.Admits rp req origin) (hstar : str "*" ∉ corsOrigins annotations) (rh : RemapHost)
    : CorsConsistent annotations req (rrCheckCors req rp (.selected rh rp)).2.rzHeaders := by
  rcases rrCheckCors.headers_of_admits h rh with ⟨hallow, hvary, -⟩
  rcases (hconf.admits_iff req origin).mp h with ⟨-, hsole, hallowed⟩
  have hno : hashPresent rp.rpCorsOrigins (str "*") = false := by
    rw [← Bool.not_eq_true, hconf.origins]
    exact hstar
  have hne : origin ≠ str "*" := by
    rintro rfl
    exact hallowed.elim hstar hstar
  rw [hno, if_neg Bool.false_ne_true] at hallow
  exact hconf.consistent_of_admits h hallow (.inr ⟨hne, hsole, hvary hno⟩) (fun _ => hne)

end CorsConfigured

theorem rrCheckCors_consistent_iff {env : Env} {ns : Namespace} {path : Option Str} {rp rp' : RemapPath}
    {annotations : Hash Str} {req : RemapRequest} {rh : RemapHost} {res : RemapResult}
    (hnew : remapPathNew env path = some rp) (hrp : remapPathAnnotate env ns rp annotations = .ok rp')
    (hauth : rrCheckAuth env req rp' (.selected rh rp') = .ok (.ok, res))
    : CorsConsistent annotations req (rrCheckCors req rp' res).2.rzHeaders
        ↔
      ¬ AnyOriginCredentials annotations req := by
  have hconf := corsConfigured_of_remapPathAnnotate hnew hrp
  have hres : res = .selected rh rp' := by
    rcases rrCheckAuth_cases hauth with ⟨-, hres⟩ | ⟨hcode, -⟩
    . exact hres
    . simp at hcode
  rw [hres]
  by_cases h : ∃ origin, rrCheckCors.Admits rp' req origin
  . rcases h with ⟨origin, h⟩
    rcases (hconf.admits_iff req origin).mp h with ⟨hon, hsole, -⟩
    by_cases hstar : str "*" ∈ corsOrigins annotations
    . rw [hconf.consistent_iff_of_wildcard h hstar]
      apply not_congr
      constructor
      . rintro ⟨hmethod, hcreds⟩
        exact ⟨hon, hcreds, hstar, hmethod, origin, hsole⟩
      . rintro ⟨-, hcreds, -, hmethod, -⟩
        exact ⟨hmethod, hcreds⟩
    . refine iff_of_true (hconf.consistent_of_listed h hstar rh) ?_
      rintro ⟨-, -, hstar', -⟩
      exact hstar hstar'
  . refine iff_of_true (hconf.consistent_of_not_admits h rh) ?_
    rintro ⟨hon, -, hstar, -, origin, hsole⟩
    exact h ⟨origin, (hconf.admits_iff req origin).mpr ⟨hon, hsole, .inl hstar⟩⟩

def credentialsAnnotations : Hash Str :=
  hashSet (hashSet (hashNew 127) inEnableCors (str "true")) inCorsCredentials (str "true")

def credentialsPath : RemapPath :=
  { remapPathDefault with
    rpEnableCors := true
    rpCorsCreds := true }

def originRequest (method : String) : RemapRequest :=
  { getRequest (str "a") with
    rrMethod := str method
    rrHdrfields := hashSet (hashNew 127) (str "origin") ⟨[str "http://example.com"]⟩ }

theorem remapPathAnnotate_credentials (ns : Namespace)
    : remapPathAnnotate plainEnv ns remapPathDefault credentialsAnnotations = .ok credentialsPath := by
  have htrue : truefalse (str "true") = true := by
    decide +kernel
  have hentries : credentialsAnnotations.entries
      = [(inCorsCredentials, str "true"), (inEnableCors, str "true")] := by
    apply ChainTable.entries_set_set_new
    decide +kernel
  unfold remapPathAnnotate
  rw [hentries, List.foldlM_cons, remapPathAnnotateOne.corsCredentials, Except.ok_bind, List.foldlM_cons,
    remapPathAnnotateOne.enableCors, htrue]
  rfl

theorem remapPathNew_plainEnv_none : remapPathNew plainEnv none = some remapPathDefault := by
  rfl

theorem rrCheckAuth_credentials (method : String)
    : rrCheckAuth plainEnv (originRequest method) credentialsPath
          (.selected (pathHost credentialsPath) credentialsPath)
        =
      .ok (.ok, .selected (pathHost credentialsPath) credentialsPath) := by
  rfl

theorem rrCheckCors_consistent_get
    : CorsConsistent credentialsAnnotations (originRequest "GET")
        (rrCheckCors (originRequest "GET") credentialsPath
          (.selected (pathHost credentialsPath) credentialsPath)).2.rzHeaders := by
  rw [rrCheckCors_consistent_iff remapPathNew_plainEnv_none
    (remapPathAnnotate_credentials (namespaceMake (str "default"))) (rrCheckAuth_credentials "GET")]
  rintro ⟨-, -, -, hmethod, -⟩
  exact absurd hmethod (by decide +kernel)

theorem not_rrCheckCors_consistent
    : remapPathNew plainEnv none = some remapPathDefault
        ∧
      remapPathAnnotate plainEnv (namespaceMake (str "default")) remapPathDefault credentialsAnnotations
          = .ok credentialsPath
        ∧
      rrCheckAuth plainEnv (originRequest "OPTIONS") credentialsPath
            (.selected (pathHost credentialsPath) credentialsPath)
          = .ok (.ok, .selected (pathHost credentialsPath) credentialsPath)
        ∧
      ¬ CorsConsistent credentialsAnnotations (originRequest "OPTIONS")
          (rrCheckCors (originRequest "OPTIONS") credentialsPath
            (.selected (pathHost credentialsPath) credentialsPath)).2.rzHeaders := by
  have hrp := remapPathAnnotate_credentials (namespaceMake (str "default"))
  refine ⟨remapPathNew_plainEnv_none, hrp, rrCheckAuth_credentials "OPTIONS", ?_⟩
  have hconf := corsConfigured_of_remapPathAnnotate remapPathNew_plainEnv_none hrp
  have hsole : SoleOrigin (originRequest "OPTIONS") (str "http://example.com") :=
    ⟨_, ChainTable.get_set_self _ _ _, rfl⟩
  have hstar : str "*" ∈ corsOrigins credentialsAnnotations := by
    decide +kernel
  have hadmits := (hconf.admits_iff _ _).mpr ⟨by decide +kernel, hsole, .inl hstar⟩
  rw [hconf.consistent_iff_of_wildcard hadmits hstar, not_not]
  exact ⟨rfl, by decide +kernel⟩
