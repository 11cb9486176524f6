import TsIngress.Remap.Lemmas.Build
import TsIngress.Api.Impl.Make

/-!
This module contains which fields an object of the API may lack. The `*_make` functions leave unset what
the JSON does not have, and the build reads some of it without looking.
-/

structure MadeFromJson (env : Env) (cs : Cluster) : Prop where
  ingresses : ∀ ns ∈ hashValues cs.csNamespaces, ∀ ing ∈ hashValues ns.nsIngresses,
    ∃ obj, ingressMake env obj = .ok (some ing)
  services : ∀ ns ∈ hashValues cs.csNamespaces, ∀ svc ∈ hashValues ns.nsServices,
    ∃ obj, serviceMake env obj = .ok (some svc)
  endpoints : ∀ ns ∈ hashValues cs.csNamespaces, ∀ eps ∈ hashValues ns.nsEndpointses,
    ∃ obj, endpointsMake obj = some eps
  secrets : ∀ ns ∈ hashValues cs.csNamespaces, ∀ se ∈ hashValues ns.nsSecrets,
    ∃ obj, secretMake obj = some se

theorem serviceMake_svPorts {env : Env} {obj : Json} {svc : Service}
    (h : serviceMake env obj = .ok (some svc)) (htype : svc.svType.isSome)
    : svc.svPorts.isSome := by
  unfold serviceMake at h
  split at h
  . cases h
  . split at h
    . split at h
      . cases h
        cases htype
      . iterate 5
          rw [Except.bind_eq_ok_iff] at h
          rcases h with ⟨_, -, h⟩
        cases h
        rfl
    . cases h

def metadataJson (name : String) : Str × Json :=
  (str "metadata", .object [(str "namespace", .string (str "default")), (str "name", .string (str name))])

def secureIngressJson (secretName : List (Str × Json)) : Json :=
  .object [
    metadataJson "web",
    (str "spec", .object [
      (str "tls", .array [.object ((str "hosts", .array [.string (str "foo.com")]) :: secretName)]),
      (str "rules", .array [.object [
        (str "host", .string (str "foo.com")),
        (str "http", .object [(str "paths", .array [.object [
          (str "backend", .object [
            (str "serviceName", .string (str "web")),
            (str "servicePort", .int 443)])]])])]])])]

def secureIngress (secretName : Option Str) : Ingress where
  inName := str "web"
  inNamespace := str "default"
  inTls := [⟨secretName, [str "foo.com"]⟩]
  inRules := [⟨some (str "foo.com"), [⟨none, some (str "web"), some (str "443")⟩]⟩]
  inAnnotations := hashNew 127

def externalServiceJson : Json :=
  .object [
    metadataJson "web",
    (str "spec", .object [
      (str "type", .string (str "ExternalName")),
      (str "externalName", .string (str "example.com"))])]

def externalService : Service where
  svName := str "web"
  svNamespace := str "default"
  svType := some (str "ExternalName")
  svExternalName := some (str "example.com")
  svSelector := some (hashNew 127)
  svPorts := some (hashNew 127)

def secureNamespace (secretName : Option Str) : Namespace :=
  { namespaceMake (str "default") with
    nsIngresses := hashSet (hashNew 127) (str "web") (secureIngress secretName)
    nsServices := hashSet (hashNew 127) (str "web") externalService }

def secureCluster (secretName : Option Str) : Cluster :=
  { clusterMake with csNamespaces := hashSet (hashNew 127) (str "default") (secureNamespace secretName) }

theorem ingressMake_secureIngress (secretName : List (Str × Json))
    : ingressMake plainEnv (secureIngressJson secretName)
        =
      .ok (some (secureIngress (jsonStringMember (.object secretName) "secretName"))) := by
  rfl

theorem serviceMake_externalService : serviceMake plainEnv externalServiceJson = .ok (some externalService) := by
  rfl

theorem hashValues_secureCluster (secretName : Option Str)
    : hashValues (secureCluster secretName).csNamespaces = [secureNamespace secretName]
        ∧
      hashValues (secureNamespace secretName).nsIngresses = [secureIngress secretName]
        ∧
      hashValues (secureNamespace secretName).nsServices = [externalService] := by
  refine ⟨?_, ?_, ?_⟩
  . apply hashValues_singleton
  . apply hashValues_singleton
  . apply hashValues_singleton

theorem madeFromJson_secureCluster (secretName : List (Str × Json))
    : MadeFromJson plainEnv (secureCluster (jsonStringMember (.object secretName) "secretName")) := by
  rcases hashValues_secureCluster (jsonStringMember (.object secretName) "secretName") with
    ⟨hnamespaces, hingresses, hservices⟩
  constructor
  . intro ns hns ing hing
    rw [hnamespaces, List.mem_singleton] at hns
    rw [hns, hingresses, List.mem_singleton] at hing
    rw [hing]
    exact ⟨_, ingressMake_secureIngress secretName⟩
  . intro ns hns svc hsvc
    rw [hnamespaces, List.mem_singleton] at hns
    rw [hns, hservices, List.mem_singleton] at hsvc
    rw [hsvc]
    exact ⟨_, serviceMake_externalService⟩
  . intro ns hns eps heps
    rw [hnamespaces, List.mem_singleton] at hns
    simp [hns, secureNamespace, namespaceMake, hashValues] at heps
  . intro ns hns se hse
    rw [hnamespaces, List.mem_singleton] at hns
    simp [hns, secureNamespace, namespaceMake, hashValues] at hse

theorem visits_secureCluster_iff (secretName : Option Str) (ns : Namespace) (ing : Ingress)
    : Visits anyClass (secureCluster secretName) ns ing
        ↔
      ns = secureNamespace secretName ∧ ing = secureIngress secretName := by
  rcases hashValues_secureCluster secretName with ⟨hnamespaces, hingresses, -⟩
  unfold Visits
  rw [hnamespaces, List.mem_singleton]
  constructor
  . rintro ⟨rfl, hing, -⟩
    rw [hingresses, List.mem_singleton] at hing
    exact ⟨rfl, hing⟩
  . rintro ⟨rfl, rfl⟩
    rw [hingresses, List.mem_singleton]
    exact ⟨rfl, rfl, rfl⟩

/--
A build over objects that were made from JSON comes to its end exactly if the Ingresses that it looks
into, the services and endpoints their paths lead to and the password files they name have what it reads.
-/
theorem remapDbFromCluster_completes_iff (env : Env) (cfg : K8sConfig) (cs : Cluster)
    (hmade : MadeFromJson env cs)
    : (∃ db cs', remapDbFromCluster env cfg cs = .ok (db, cs'))
        ↔
      ∀ ns ing, Visits cfg cs ns ing → IngressFields env cs ns ing := by
  have hreturns : (∃ db cs', remapDbFromCluster env cfg cs = .ok (db, cs'))
      ↔ Except.Returns (remapDbFromCluster env cfg cs) := by
    unfold Except.Returns
    rw [Prod.exists]
  rw [hreturns]
  apply remapDbFromCluster_returns_iff
  intro ns hns svc hsvc
  rcases hmade.services ns hns svc hsvc with ⟨obj, hobj⟩
  exact serviceMake_svPorts hobj

theorem remapDbFromCluster_completes_secureCluster
    : MadeFromJson plainEnv (secureCluster (some (str "cert")))
        ∧
      ∃ db cs', remapDbFromCluster plainEnv anyClass (secureCluster (some (str "cert"))) = .ok (db, cs') := by
  have hmade : MadeFromJson plainEnv (secureCluster (some (str "cert"))) :=
    madeFromJson_secureCluster [(str "secretName", .string (str "cert"))]
  refine ⟨hmade, ?_⟩
  rw [remapDbFromCluster_completes_iff plainEnv anyClass _ hmade]
  intro ns ing hvisits
  rw [visits_secureCluster_iff] at hvisits
  rcases hvisits with ⟨rfl, rfl⟩
  constructor
  . simp [secureIngress]
  . intro rule hrule host _ _ path hpath
    rw [List.mem_singleton.mp hrule] at hpath
    rw [List.mem_singleton.mp hpath]
    refine ⟨str "web", rfl, ?_⟩
    intro svc hsvc _
    have heq : svc = externalService := by
      simpa [namespaceGetService, secureNamespace] using hsvc.symm
    rw [heq]
    constructor
    . simp [secureIngress]
    . refine ⟨rfl, rfl, ?_, ?_⟩
      . intro _
        rfl
      . intro hne
        exact absurd rfl hne

-- Kubernetes accepts a TLS entry without the name of a secret.
theorem not_remapDbFromCluster_completes
    : ¬ ∀ (env : Env) (cfg : K8sConfig) (cs : Cluster), MadeFromJson env cs →
        ∃ db cs', remapDbFromCluster env cfg cs = .ok (db, cs') := by
  intro hcompletes
  have hmade : MadeFromJson plainEnv (secureCluster none) := madeFromJson_secureCluster []
  rcases hcompletes plainEnv anyClass _ hmade with ⟨db, cs', hok⟩
  have hsteps := remapDbFromCluster.steps_of_ok hok
  rw [foldlM_run_eq_ok_iff] at hsteps
  apply hsteps.1
  rw [mem_clusterSteps_iff]
  refine ⟨_, _, (visits_secureCluster_iff none _ _).mpr ⟨rfl, rfl⟩, .inr ⟨⟨none, [str "foo.com"]⟩, ?_, ?_⟩⟩
  . simp [secureIngress]
  . simp [tlsSteps]
