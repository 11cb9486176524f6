import TsIngress.Util.Impl.Hash

/-!
This module contains the data types of `api/api.h`. A string or table that the code may leave unset is
an `Option`. The sizes of the arrays are the lengths of the lists.
-/

-- JSON, as far as the accessors of json-c tell it apart. A string is what `json_object_get_string`
-- shows of it, a double is kept as its text.
inductive Json where
  | null
  | boolean (b : Bool)
  | int (n : Int)
  | double (text : Str)
  | string (s : Str)
  | array (elems : List Json)
  | object (fields : List (Str × Json))

structure EndpointsPort where
  etName : Str
  etPort : Int
  etProtocol : Str
  deriving DecidableEq

structure EndpointsAddress where
  eaIp : Option Str
  eaNodename : Option Str
  deriving DecidableEq

structure EndpointsSubset where
  esAddrs : List EndpointsAddress
  esPorts : Hash EndpointsPort

structure Endpoints where
  epName : Str
  epNamespace : Str
  epSubsets : List EndpointsSubset

inductive ServiceProto where
  | tcp
  | udp
  deriving DecidableEq, Repr

structure ServicePort where
  spName : Str
  spPort : Int
  spTargetPort : Int
  spProtocol : ServiceProto
  deriving DecidableEq

structure Service where
  svName : Str
  svNamespace : Str
  svType : Option Str := none
  svClusterIp : Option Str := none
  svSessionAffinity : Option Str := none
  svExternalName : Option Str := none
  svSelector : Option (Hash Str) := none
  svPorts : Option (Hash ServicePort) := none

structure IngressTls where
  itSecretName : Option Str
  itHosts : List Str
  deriving DecidableEq

structure IngressPath where
  ipPath : Option Str
  ipServiceName : Option Str
  ipServicePort : Option Str
  deriving DecidableEq

structure IngressRule where
  irHost : Option Str
  irPaths : List IngressPath
  deriving DecidableEq

structure Ingress where
  inName : Str
  inNamespace : Str
  inTls : List IngressTls
  inRules : List IngressRule
  inAnnotations : Hash Str

structure Secret where
  seName : Str
  seNamespace : Str
  seType : Str
  seData : Hash Str

structure ConfigMap where
  cmName : Str
  cmNamespace : Str
  cmData : Hash Str

structure Namespace where
  nsName : Str
  nsIngresses : Hash Ingress
  nsSecrets : Hash Secret
  nsServices : Hash Service
  nsEndpointses : Hash Endpoints

structure ClusterCert where
  crDomain : Str
  crNamespace : Str
  crName : Str
  deriving DecidableEq

structure ClusterDomain where
  daDomain : Str
  daNamespaces : Hash Unit

def inTlsVersion10Value : Int := 0x0100
def inTlsVersion11Value : Int := 0x0101
def inTlsVersion12Value : Int := 0x0102

def TlsVersionLegal (version : Int) : Prop :=
  version = inTlsVersion10Value ∨ version = inTlsVersion11Value ∨ version = inTlsVersion12Value

instance : DecidablePred TlsVersionLegal :=
  fun version => inferInstanceAs (Decidable (version = _ ∨ version = _ ∨ version = _))

structure ClusterConfig where
  ccTlsMinimumVersion : Int
  ccHstsMaxAge : Int
  ccHstsSubdomains : Bool
  ccHttp2 : Bool
  ccHealthcheck : Str
  ccDomains : List ClusterDomain
  ccCerts : List ClusterCert
  tlsVersion_legal : TlsVersionLegal ccTlsMinimumVersion

structure Cluster where
  csNamespaces : Hash Namespace
  csConfig : ClusterConfig

structure K8sConfig where
  coClasses : Hash Unit
  coConfigmapNamespace : Option Str
  coConfigmapName : Option Str
