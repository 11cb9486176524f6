import TsIngress.Api.Impl.Json

/-!
This module contains the functions that make the objects of the API from JSON, and the comparison of
endpoints.
-/

def ingressPathMake (env : Env) (obj : Json) : Result IngressPath := do
  let ipPath := jsonStringMember obj "path"
  match jsonObjectObjectGetEx obj "backend" with
  | none => return ⟨ipPath, none, none⟩
  | some backend =>
    let ipServicePort ← jsonTextMember env backend "servicePort"
    return ⟨ipPath, jsonStringMember backend "serviceName", ipServicePort⟩

def ingressRuleMake (env : Env) (obj : Json) : Result IngressRule := do
  let irHost := jsonStringMember obj "host"
  match (jsonObjectObjectGetEx obj "http").bind fun http => jsonArrayMember http "paths" with
  | none => return ⟨irHost, []⟩
  | some paths =>
    let irPaths ← paths.mapM (ingressPathMake env)
    return ⟨irHost, irPaths⟩

def ingressTlsMake (env : Env) (atls : Json) : Result IngressTls := do
  let itSecretName := jsonStringMember atls "secretName"
  match jsonObjectObjectGetEx atls "hosts" with
  | none => return ⟨itSecretName, []⟩
  | some hosts =>
    let elems ← jsonObjectArrayElems hosts
    let itHosts ← elems.mapM fun host => deref (jsonObjectGetString env host)
    return ⟨itSecretName, itHosts⟩

def hashOfMember (env : Env) (obj : Json) (key : String) : Result (Hash Str) :=
  match jsonObjectObjectGetEx obj key with
  | none => return hashNew 127
  | some tmp => do
    let fields ← jsonObjectFields tmp
    hashOfTexts env fields

def ingressMake (env : Env) (obj : Json) : Result (Option Ingress) :=
  match jsonObjectMember obj "metadata" with
  | none => return none
  | some metadata =>
    match jsonStringMember metadata "namespace", jsonStringMember metadata "name" with
    | some inNamespace, some inName => do
      let inAnnotations ← hashOfMember env metadata "annotations"
      match jsonObjectMember obj "spec" with
      | none => return some ⟨inName, inNamespace, [], [], inAnnotations⟩
      | some spec =>
        let inTls ← ((jsonArrayMember spec "tls").getD []).mapM (ingressTlsMake env)
        let inRules ← ((jsonArrayMember spec "rules").getD []).mapM (ingressRuleMake env)
        return some ⟨inName, inNamespace, inTls, inRules, inAnnotations⟩
    | _, _ => return none

def servicePortMake (jport : Json) : ServicePort :=
  let spPort := (jsonIntMember jport "port").getD 0
  { spName := (jsonStringMember jport "name").getD []
    spPort := spPort
    spTargetPort := (jsonIntMember jport "targetPort").getD spPort
    spProtocol := if jsonStringMember jport "protocol" = some (str "UDP") then .udp else .tcp }

def servicePortsMake (ports : List Json) : Hash ServicePort :=
  ports.foldl
    (fun hs jport =>
      let port := servicePortMake jport
      hashSet hs port.spName port)
    (hashNew 127)

def serviceMake (env : Env) (obj : Json) : Result (Option Service) :=
  match jsonObjectMember obj "metadata" with
  | none => return none
  | some metadata =>
    match jsonStringMember metadata "namespace", jsonStringMember metadata "name" with
    | some svNamespace, some svName =>
      match jsonObjectMember obj "spec" with
      | none => return some { svName := svName, svNamespace := svNamespace }
      | some spec => do
        let svType ← jsonTextMember env spec "type"
        let svClusterIp ← jsonTextMember env spec "clusterIP"
        let svSessionAffinity ← jsonTextMember env spec "sessionAffinity"
        let svExternalName ← jsonTextMember env spec "externalName"
        let svSelector ← hashOfMember env spec "selector"
        let svPorts := servicePortsMake ((jsonArrayMember spec "ports").getD [])
        return some ⟨svName, svNamespace, svType, svClusterIp, svSessionAffinity, svExternalName,
          some svSelector, some svPorts⟩
    | _, _ => return none

def dataMake (obj : Json) : Hash Str :=
  match jsonObjectMember obj "data" with
  | some (.object fields) => hashOfStrings fields
  | _ => hashNew 127

def secretMake (obj : Json) : Option Secret :=
  match jsonObjectMember obj "metadata" with
  | none => none
  | some metadata =>
    match jsonStringMember metadata "namespace", jsonStringMember metadata "name",
        jsonStringMember obj "type" with
    | some seNamespace, some seName, some seType => some ⟨seName, seNamespace, seType, dataMake obj⟩
    | _, _, _ => none

def configmapMake (obj : Json) : Option ConfigMap :=
  match jsonObjectMember obj "metadata" with
  | none => none
  | some metadata =>
    match jsonStringMember metadata "namespace", jsonStringMember metadata "name" with
    | some cmNamespace, some cmName => some ⟨cmName, cmNamespace, dataMake obj⟩
    | _, _ => none

def endpointsPortMake (port : Json) : EndpointsPort where
  etName := (jsonStringMember port "name").getD []
  etPort := (jsonIntMember port "port").getD 0
  etProtocol := (jsonStringMember port "protocol").getD (str "TCP")

def endpointsPortsMake (ports : List Json) : Hash EndpointsPort :=
  ports.foldl
    (fun hs port =>
      let eport := endpointsPortMake port
      hashSet hs eport.etName eport)
    (hashNew 7)

def endpointsAddressMake (address : Json) : EndpointsAddress where
  eaIp := jsonStringMember address "ip"
  eaNodename := jsonStringMember address "nodeName"

def endpointsSubsetMake (subset : Json) : EndpointsSubset where
  esAddrs := ((jsonArrayMember subset "addresses").getD []).map endpointsAddressMake
  esPorts := endpointsPortsMake ((jsonArrayMember subset "ports").getD [])

def endpointsMake (obj : Json) : Option Endpoints :=
  match jsonObjectMember obj "metadata" with
  | none => none
  | some metadata =>
    match jsonStringMember metadata "namespace", jsonStringMember metadata "name" with
    | some epNamespace, some epName =>
      some ⟨epName, epNamespace, ((jsonArrayMember obj "subsets").getD []).map endpointsSubsetMake⟩
    | _, _ => none

def stringsEqual : Option Str → Option Str → Bool
  | none, none => true
  | some a, some b => a == b
  | _, _ => false

def endpointsAddressesEqual : List EndpointsAddress → List EndpointsAddress → Bool
  | [], [] => true
  | aa :: as, ba :: bs =>
    stringsEqual aa.eaIp ba.eaIp && stringsEqual aa.eaNodename ba.eaNodename
      && endpointsAddressesEqual as bs
  | _, _ => false

def endpointsPortsEqual : List (Str × EndpointsPort) → List (Str × EndpointsPort) → Bool
  | [], [] => true
  | (ka, pa) :: as, (kb, pb) :: bs =>
    ka == kb && pa.etName == pb.etName && pa.etProtocol == pb.etProtocol && pa.etPort == pb.etPort
      && endpointsPortsEqual as bs
  | _, _ => false

def endpointsSubsetsEqual : List EndpointsSubset → List EndpointsSubset → Bool
  | [], [] => true
  | a :: as, b :: bs =>
    endpointsAddressesEqual a.esAddrs b.esAddrs && endpointsPortsEqual a.esPorts.entries b.esPorts.entries
      && endpointsSubsetsEqual as bs
  | _, _ => false

def endpointsEqual (a b : Endpoints) : Bool :=
  a.epName == b.epName && a.epNamespace == b.epNamespace && endpointsSubsetsEqual a.epSubsets b.epSubsets
