import TsIngress.Remap.Impl.Build
import TsIngress.Remap.Lemmas.Annotate

/-!
This module contains what one path entry of an Ingress does to the host it is for.
-/

/--
The targets of a service: the name of an ExternalName service, or the addresses of the endpoints of the
same name with the port they publish under the name of the service port.
-/
def ServiceTarget (ns : Namespace) (svc : Service) (portName : Option Str) (t : RemapTarget) : Prop :=
  (svc.svType = some svTypeExternalName
    ∧ ∃ name port, svc.svExternalName = some name ∧ portName = some port ∧ t = ⟨name, atoi port⟩)
    ∨
  (svc.svType ≠ some svTypeExternalName
    ∧ ∃ port eps, serviceFindPort svc portName .tcp = .ok (some port)
      ∧ namespaceGetEndpoints ns svc.svName = some eps
      ∧ ∃ es ∈ eps.epSubsets, ∃ epp, hashGet es.esPorts port.spName = some epp
        ∧ ∃ addr ∈ es.esAddrs, ∃ ip, addr.eaIp = some ip ∧ t = ⟨ip, epp.etPort⟩)

def Adds (rp : RemapPath) (P : RemapTarget → Prop) (rp' : RemapPath) : Prop :=
  ∃ ts, rp' = { rp with rpAddrs := rp.rpAddrs ++ ts } ∧ ∀ t, t ∈ ts ↔ P t

namespace Adds

variable {rp rp' rp'' : RemapPath} {P Q : RemapTarget → Prop}

theorem refl (h : ∀ t, ¬ P t) : Adds rp P rp := by
  exact ⟨[], by simp, by simpa using h⟩

theorem trans (h : Adds rp P rp') (h' : Adds rp' Q rp'') : Adds rp (fun t => P t ∨ Q t) rp'' := by
  rcases h with ⟨ts, rfl, hts⟩
  rcases h' with ⟨us, rfl, hus⟩
  refine ⟨ts ++ us, ?_, ?_⟩
  . simp
  . intro t
    rw [List.mem_append, hts, hus]

theorem congr (h : Adds rp P rp') (hPQ : ∀ t, P t ↔ Q t) : Adds rp Q rp' := by
  rcases h with ⟨ts, rfl, hts⟩
  refine ⟨ts, rfl, ?_⟩
  intro t
  rw [hts, hPQ]

theorem of_foldlM {f : RemapPath → α → Result RemapPath} {P : α → RemapTarget → Prop} {l : List α}
    (step : ∀ rp a rp', a ∈ l → f rp a = .ok rp' → Adds rp (P a) rp')
    (h : l.foldlM f rp = .ok rp')
    : Adds rp (fun t => ∃ a ∈ l, P a t) rp' := by
  induction l generalizing rp with
  | nil =>
    cases h
    apply refl
    simp
  | cons a l ih =>
    rw [List.foldlM_cons, Except.bind_eq_ok_iff] at h
    rcases h with ⟨rp1, h1, h⟩
    have hfirst := step rp a rp1 (by simp) h1
    have hrest := ih (fun rp b rp' hb => step rp b rp' (by simp [hb])) h
    apply (hfirst.trans hrest).congr
    simp

end Adds

theorem addSubset_adds {port : ServicePort} {es : EndpointsSubset} {rp rp' : RemapPath}
    (h : addSubset port rp es = .ok rp')
    : Adds rp
        (fun t => ∃ epp, hashGet es.esPorts port.spName = some epp
          ∧ ∃ addr ∈ es.esAddrs, ∃ ip, addr.eaIp = some ip ∧ t = ⟨ip, epp.etPort⟩)
        rp' := by
  unfold addSubset at h
  split at h
  . next hnone =>
    cases h
    apply Adds.refl
    simp [hnone]
  . next epp hepp =>
    have hstep : ∀ (rp : RemapPath) (addr : EndpointsAddress) (rp' : RemapPath), addr ∈ es.esAddrs →
        (do
          let ip ← deref addr.eaIp
          return remapPathAddAddress rp ip epp.etPort) = Except.ok rp' →
        Adds rp (fun t => ∃ ip, addr.eaIp = some ip ∧ t = ⟨ip, epp.etPort⟩) rp' := by
      intro rp addr rp' _ h
      rw [Except.bind_eq_ok_iff] at h
      rcases h with ⟨ip, hip, h⟩
      rw [deref_eq_ok_iff] at hip
      cases h
      exact ⟨[⟨ip, epp.etPort⟩], rfl, by simp [hip]⟩
    apply (Adds.of_foldlM hstep h).congr
    intro t
    simp [hepp]

theorem buildAddEndpoints_adds {ns : Namespace} {svc : Service} {portName : Option Str}
    {rp rp' : RemapPath} (h : buildAddEndpoints ns rp svc portName = .ok rp')
    : Adds rp (ServiceTarget ns svc portName) rp' := by
  unfold buildAddEndpoints at h
  rw [Except.bind_eq_ok_iff] at h
  rcases h with ⟨svType, htype, h⟩
  rw [deref_eq_ok_iff] at htype
  split at h
  . next hext =>
    rw [Except.bind_eq_ok_iff] at h
    rcases h with ⟨port, hport, h⟩
    rw [Except.bind_eq_ok_iff] at h
    rcases h with ⟨name, hname, h⟩
    rw [deref_eq_ok_iff] at hport hname
    cases h
    refine ⟨[⟨name, atoi port⟩], rfl, ?_⟩
    intro t
    simp [ServiceTarget, htype, hext, hname, hport]
  . next hext =>
    rw [Except.bind_eq_ok_iff] at h
    rcases h with ⟨found, hfound, h⟩
    cases found with
    | none =>
      cases h
      apply Adds.refl
      intro t
      simp [ServiceTarget, htype, hext, hfound]
    | some port =>
      dsimp only at h
      split at h
      . next hnone =>
        cases h
        apply Adds.refl
        intro t
        simp [ServiceTarget, htype, hext, hnone]
      . next eps heps =>
        apply (Adds.of_foldlM (fun rp es rp' _ h => addSubset_adds h) h).congr
        intro t
        simp [ServiceTarget, htype, hext, hfound, heps]

def Configured (ns : Namespace) (svc : Service) (portName : Option Str) (rp rp' : RemapPath) : Prop :=
  rp'.rpRegex = rp.rpRegex
    ∧
  ∃ ts, rp'.rpAddrs = rp.rpAddrs ++ ts ∧ ∀ t, t ∈ ts ↔ ServiceTarget ns svc portName t

theorem configured_of_ok {env : Env} {ns : Namespace} {annotations : Hash Str} {svc : Service}
    {portName : Option Str} {rp rp' : RemapPath}
    (h : (remapPathAnnotate env ns rp annotations >>= fun rp =>
      buildAddEndpoints ns rp svc portName) = .ok rp')
    : Configured ns svc portName rp rp' := by
  rw [Except.bind_eq_ok_iff] at h
  rcases h with ⟨rp1, h1, h⟩
  have hroute := remapPathAnnotate_sameRoute h1
  rcases buildAddEndpoints_adds h with ⟨ts, rfl, hts⟩
  refine ⟨hroute.1, ts, ?_, hts⟩
  rw [← hroute.2]

inductive PathStep (env : Env) (cs : Cluster) (ns : Namespace) (ing : Ingress) (path : IngressPath)
    (rh rh' : RemapHost) : Prop where
  -- the service is not there or the path is not a pattern
  | skip (h : rh' = rh)
      (hwhy : ∀ name svc, path.ipServiceName = some name → namespaceGetService ns name = some svc →
        ∃ p, path.ipPath = some p ∧ remapPathNew env (some p) = none)
  | default (name : Str) (svc : Service) (hname : path.ipServiceName = some name)
      (hsvc : namespaceGetService ns name = some svc) (hpath : path.ipPath = none)
      (rp rp' : RemapPath) (hrp : rh.rhPaths[0]? = some rp)
      (hconf : Configured ns svc path.ipServicePort rp rp')
      (hpaths : rh'.rhPaths = rh.rhPaths.set 0 rp') (hctx : rh'.rhCtx = rh.rhCtx)
      (hversion : rh'.rhTlsVersion = (remapHostAnnotate rh cs ing.inAnnotations).rhTlsVersion)
  | new (name : Str) (svc : Service) (hname : path.ipServiceName = some name)
      (hsvc : namespaceGetService ns name = some svc) (p : Str) (hpath : path.ipPath = some p)
      (rp rp' : RemapPath) (hrp : remapPathNew env (some p) = some rp)
      (hconf : Configured ns svc path.ipServicePort rp rp')
      (hpaths : rh'.rhPaths = rh.rhPaths ++ [rp']) (hctx : rh'.rhCtx = rh.rhCtx)
      (hversion : rh'.rhTlsVersion = rh.rhTlsVersion)

theorem RemapHost.length_rhPaths_pos (rh : RemapHost) : 0 < rh.rhPaths.length := by
  exact List.length_pos_of_ne_nil rh.rhPaths_ne_nil

theorem RemapHost.updatePath_eq_ok {rh rh' : RemapHost} {i : Nat} {f : RemapPath → Result RemapPath}
    (h : rh.updatePath i f = .ok rh')
    : ∃ rp rp',
        rh.rhPaths[i]? = some rp
          ∧
        f rp = .ok rp'
          ∧
        rh'.rhPaths = rh.rhPaths.set i rp' ∧ rh'.rhCtx = rh.rhCtx ∧ rh'.rhTlsVersion = rh.rhTlsVersion := by
  unfold updatePath at h
  split at h
  . cases h
  . next rp hrp =>
    rw [Except.bind_eq_ok_iff] at h
    rcases h with ⟨rp', hf, h⟩
    cases h
    exact ⟨rp, rp', hrp, hf, rfl, rfl, rfl⟩

theorem buildIngressPath_pathStep {env : Env} {cs : Cluster} {ns : Namespace} {ing : Ingress}
    {rh rh' : RemapHost} {path : IngressPath} (h : buildIngressPath env cs ns ing rh path = .ok rh')
    : PathStep env cs ns ing path rh rh' := by
  unfold buildIngressPath at h
  rw [Except.bind_eq_ok_iff] at h
  rcases h with ⟨name, hname, h⟩
  rw [deref_eq_ok_iff] at hname
  split at h
  . next hnone =>
    cases h
    refine .skip rfl ?_
    intro name' svc hname' hsvc
    rw [hname] at hname'
    cases hname'
    rw [hnone] at hsvc
    cases hsvc
  . next svc hsvc =>
    dsimp only at h
    split at h
    . next hpath =>
      rcases RemapHost.updatePath_eq_ok h with ⟨rp, rp', hrp, hf, hpaths, hctx, hversion⟩
      exact .default name svc hname hsvc hpath rp rp' hrp (configured_of_ok hf) hpaths hctx hversion
    . next p hpath =>
      unfold remapHostNewPath at h
      cases hnew : remapPathNew env (some p) with
      | none =>
        rw [hnew] at h
        cases h
        refine .skip rfl ?_
        intro _ _ _ _
        exact ⟨p, hpath, hnew⟩
      | some rp =>
        rw [hnew] at h
        rcases RemapHost.updatePath_eq_ok h with ⟨rp1, rp', hrp, hf, hpaths, hctx, hversion⟩
        have hlast : rp1 = rp := by
          simpa using hrp.symm
        subst hlast
        refine .new name svc hname hsvc p hpath rp1 rp' hnew (configured_of_ok hf) ?_ hctx hversion
        rw [hpaths]
        simp

def PasswordsEnd (ns : Namespace) : Prop :=
  ∀ se ∈ hashValues ns.nsSecrets, Except.Returns (remapPathAddUsers (hashNew 127) se)

-- The objects of a namespace have the fields that the build reads.
structure HasFields (ns : Namespace) : Prop where
  tls : ∀ ing ∈ hashValues ns.nsIngresses, ∀ itls ∈ ing.inTls, itls.itSecretName.isSome
  paths : ∀ ing ∈ hashValues ns.nsIngresses, ∀ rule ∈ ing.inRules, ∀ path ∈ rule.irPaths,
    path.ipServiceName.isSome ∧ path.ipServicePort.isSome
  services : ∀ svc ∈ hashValues ns.nsServices,
    svc.svType.isSome ∧ svc.svPorts.isSome
      ∧ (svc.svType = some svTypeExternalName → svc.svExternalName.isSome)
  endpoints : ∀ eps ∈ hashValues ns.nsEndpointses, ∀ es ∈ eps.epSubsets, ∀ addr ∈ es.esAddrs,
    addr.eaIp.isSome

theorem deref_returns_iff (p : Option α) : Except.Returns (deref p) ↔ p.isSome := by
  unfold Except.Returns
  simp [deref_eq_ok_iff, Option.isSome_iff_exists]

theorem addSubset_returns_iff (port : ServicePort) (rp : RemapPath) (es : EndpointsSubset)
    : Except.Returns (addSubset port rp es)
        ↔
      ((hashGet es.esPorts port.spName).isSome → ∀ addr ∈ es.esAddrs, addr.eaIp.isSome) := by
  unfold addSubset
  cases hashGet es.esPorts port.spName with
  | none => simp [Except.Returns.ok]
  | some epp =>
    simp only [Option.isSome_some, forall_const]
    apply ExceptFold.foldlM_returns_iff
    intro rp addr _
    rw [Except.returns_bind_iff, ← deref_returns_iff]
    simp [Except.Returns]

structure EndpointsFields (ns : Namespace) (svc : Service) (portName : Option Str) : Prop where
  port : portName.isSome
  type : svc.svType.isSome
  externalName : svc.svType = some svTypeExternalName → svc.svExternalName.isSome
  addresses : svc.svType ≠ some svTypeExternalName →
    ∀ port eps, serviceFindPort svc portName .tcp = .ok (some port) →
      namespaceGetEndpoints ns svc.svName = some eps →
      ∀ es ∈ eps.epSubsets, (hashGet es.esPorts port.spName).isSome →
      ∀ addr ∈ es.esAddrs, addr.eaIp.isSome

theorem serviceFindPort_returns_iff (svc : Service) (portName : Option Str) (proto : ServiceProto)
    : Except.Returns (serviceFindPort svc portName proto) ↔ portName.isSome ∧ svc.svPorts.isSome := by
  unfold serviceFindPort
  rw [Except.returns_bind_iff]
  simp only [Except.returns_bind_iff, deref_eq_ok_iff]
  simp [Option.isSome_iff_exists, Except.Returns.ok]

theorem buildAddEndpoints_returns_iff (ns : Namespace) (rp : RemapPath) {svc : Service}
    (hports : svc.svType.isSome → svc.svPorts.isSome) (portName : Option Str)
    : Except.Returns (buildAddEndpoints ns rp svc portName) ↔ EndpointsFields ns svc portName := by
  unfold buildAddEndpoints
  rw [Except.returns_bind_iff]
  simp only [deref_eq_ok_iff]
  constructor
  . rintro ⟨svType, htype, h⟩
    split at h
    . next hext =>
      rw [Except.returns_bind_iff] at h
      rcases h with ⟨port, hport, h⟩
      rw [Except.returns_bind_iff] at h
      rcases h with ⟨name, hname, -⟩
      rw [deref_eq_ok_iff] at hport hname
      constructor
      . simp [hport]
      . simp [htype]
      . simp [hname]
      . simp [htype, hext]
    . next hext =>
      rw [Except.returns_bind_iff] at h
      rcases h with ⟨found, hfound, h⟩
      have hret := (serviceFindPort_returns_iff svc portName .tcp).mp ⟨found, hfound⟩
      constructor
      . exact hret.1
      . simp [htype]
      . simp [htype, hext]
      . intro _ port eps hport heps
        rw [hport] at hfound
        cases hfound
        dsimp only at h
        rw [heps] at h
        rw [ExceptFold.foldlM_returns_iff (fun rp es _ => addSubset_returns_iff port rp es)] at h
        exact h
  . intro h
    have htype := h.type
    rw [Option.isSome_iff_exists] at htype
    rcases htype with ⟨svType, htype⟩
    refine ⟨svType, htype, ?_⟩
    refine Except.Returns.ite (fun hext => ?_) (fun hext => ?_)
    . apply Except.Returns.bind ((deref_returns_iff _).mpr h.port)
      intro port _
      apply Except.Returns.bind ((deref_returns_iff _).mpr (h.externalName (by rw [htype, hext])))
      intro name _
      apply Except.Returns.ok
    . apply Except.Returns.bind ((serviceFindPort_returns_iff _ _ _).mpr ⟨h.port, hports h.type⟩)
      intro found hfound
      cases found with
      | none => apply Except.Returns.ok
      | some port =>
        dsimp only
        split
        . apply Except.Returns.ok
        . next eps heps =>
          rw [ExceptFold.foldlM_returns_iff (fun rp es _ => addSubset_returns_iff port rp es)]
          apply h.addresses _ port eps hfound heps
          simp [htype, hext]

theorem RemapHost.updatePath_returns_iff (rh : RemapHost) {i : Nat} (hi : i < rh.rhPaths.length)
    {f : RemapPath → Result RemapPath} {P : Prop} (hf : ∀ rp, Except.Returns (f rp) ↔ P)
    : Except.Returns (rh.updatePath i f) ↔ P := by
  unfold updatePath
  rw [List.getElem?_eq_getElem hi, ← hf rh.rhPaths[i]]
  dsimp only
  rw [Except.returns_bind_iff]
  simp [Except.Returns]

def PathFields (env : Env) (ns : Namespace) (ing : Ingress) (path : IngressPath) : Prop :=
  ∃ name, path.ipServiceName = some name
    ∧ ∀ svc, namespaceGetService ns name = some svc → (remapPathNew env path.ipPath).isSome →
      (∀ e ∈ ing.inAnnotations.entries, e.1 = inAuthSecret → ∀ se, namespaceGetSecret ns e.2 = some se →
        ∀ line ∈ passwordLines se, ¬ EmptyPassword line)
        ∧
      EndpointsFields ns svc path.ipServicePort

theorem buildIngressPath_returns_iff_of (env : Env) (cs : Cluster) {ns : Namespace} (ing : Ingress)
    (rh : RemapHost) (path : IngressPath) {P : Service → Prop}
    (hadd : ∀ svc ∈ hashValues ns.nsServices, ∀ rp,
      Except.Returns (buildAddEndpoints ns rp svc path.ipServicePort) ↔ P svc)
    : Except.Returns (buildIngressPath env cs ns ing rh path)
        ↔
      ∃ name, path.ipServiceName = some name
        ∧ ∀ svc, namespaceGetService ns name = some svc → (remapPathNew env path.ipPath).isSome →
          (∀ e ∈ ing.inAnnotations.entries, e.1 = inAuthSecret →
            ∀ se, namespaceGetSecret ns e.2 = some se → ∀ line ∈ passwordLines se, ¬ EmptyPassword line)
            ∧
          P svc := by
  unfold buildIngressPath
  rw [Except.returns_bind_iff]
  apply exists_congr
  intro name
  rw [deref_eq_ok_iff]
  apply and_congr_right
  intro _
  cases hsvc : namespaceGetService ns name with
  | none => simp [Except.Returns.ok]
  | some svc =>
    have hconf : ∀ rp,
        Except.Returns (remapPathAnnotate env ns rp ing.inAnnotations >>= fun rp =>
          buildAddEndpoints ns rp svc path.ipServicePort)
          ↔
        (∀ e ∈ ing.inAnnotations.entries, e.1 = inAuthSecret → ∀ se, namespaceGetSecret ns e.2 = some se →
          ∀ line ∈ passwordLines se, ¬ EmptyPassword line)
          ∧
        P svc := by
      intro rp
      rw [Except.returns_bind_iff, ← remapPathAnnotate_returns_iff env ns rp]
      simp only [hadd svc (mem_hashValues_of_hashGet hsvc)]
      unfold Except.Returns
      simp
    simp only [Option.some.injEq, forall_eq']
    cases path.ipPath with
    | none =>
      rw [RemapHost.updatePath_returns_iff _ (RemapHost.length_rhPaths_pos _) hconf]
      simp [remapPathNew]
    | some ipPath =>
      unfold remapHostNewPath
      cases hnew : remapPathNew env (some ipPath) with
      | none => simp [hnew, Except.Returns.ok]
      | some rp =>
        simp only [hnew]
        rw [RemapHost.updatePath_returns_iff _ _ hconf]
        . simp
        . simp

theorem buildIngressPath_returns_iff (env : Env) (cs : Cluster) {ns : Namespace}
    (hports : ∀ svc ∈ hashValues ns.nsServices, svc.svType.isSome → svc.svPorts.isSome)
    (ing : Ingress) (rh : RemapHost) (path : IngressPath)
    : Except.Returns (buildIngressPath env cs ns ing rh path) ↔ PathFields env ns ing path := by
  unfold PathFields
  apply buildIngressPath_returns_iff_of
  intro svc hsvc rp
  exact buildAddEndpoints_returns_iff ns rp (hports svc hsvc) path.ipServicePort

theorem pathFields_of_hasFields {ns : Namespace} (h : HasFields ns) (hend : PasswordsEnd ns) (env : Env)
    (ing : Ingress) {path : IngressPath} (hpath : path.ipServiceName.isSome ∧ path.ipServicePort.isSome)
    : PathFields env ns ing path := by
  rcases hpath with ⟨hname, hport⟩
  rw [Option.isSome_iff_exists] at hname
  rcases hname with ⟨name, hname⟩
  refine ⟨name, hname, ?_⟩
  intro svc hsvc _
  rcases h.services svc (mem_hashValues_of_hashGet hsvc) with ⟨htype, -, hext⟩
  constructor
  . intro e _ _ se hse
    rw [← remapPathAddUsers_returns_iff (hashNew 127)]
    exact hend se (mem_hashValues_of_hashGet hse)
  . refine ⟨hport, htype, hext, ?_⟩
    intro _ port eps _ heps es hes _
    exact h.endpoints eps (mem_hashValues_of_hashGet heps) es hes
